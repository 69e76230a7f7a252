import Polyadic.Catalogue.Declaration
import Polyadic.Catalogue.WeakSupport
import Polyadic.Manifest.Basic

/-!
# Generated source files

A manifest produces a main file with the catalogue and, unless it is turned off, a support file beside
it. Each is a program: `using` directives and one namespace.
-/

namespace Polyadic

/-- A generated source file. -/
inductive GeneratedFile where
  /-- The catalogue for every arity. -/
  | main
  /-- The base class of the weak mappings. -/
  | support
  deriving DecidableEq, Repr

namespace GeneratedFile

/-- The files that a manifest produces. -/
def ofManifest (manifest : Manifest) : List GeneratedFile :=
  if manifest.output.support then [main, support] else [main]

/-- Where the file goes, relative to the output directory. -/
def path (manifest : Manifest) : GeneratedFile → String
  | main => manifest.output.path
  | support => Path.append ((Path.parent? manifest.output.path).getD "") Manifest.supportFileName

/-- The `using` directives of the file. -/
def usings (manifest : Manifest) : GeneratedFile → List String
  | main => manifest.names.usings
  | support => Catalogue.supportNamespaces

/-- What stands in the namespace of the file. -/
def body (manifest : Manifest) : GeneratedFile → Session.Program
  | main => Catalogue.program manifest.arities manifest.names.key
  | support => [Catalogue.weakBase]

/-- The program that emits the file. -/
def program (manifest : Manifest) (file : GeneratedFile) : Session.Program :=
  (file.usings manifest).map (fun name => Catalogue.line s!"using {name}") ++
    [Catalogue.block s!"namespace {manifest.names.namespaceName}" (file.body manifest)]

end GeneratedFile

/-- The paths of the files that a manifest produces. -/
def Manifest.paths (manifest : Manifest) : List String :=
  (GeneratedFile.ofManifest manifest).map (·.path manifest)

end Polyadic
