import Polyadic.Arities
import Polyadic.Path
import Polyadic.Session.Options

/-!
# Manifests

What to generate: the main file and its layout, the arities, and the names in the generated sources.
-/

namespace Polyadic

namespace Manifest

/-- Where and how files are written. -/
structure Output where
  /-- The main file, relative to the output directory. -/
  path : String := "Mapping.cs"
  indent : Session.Indent := .tab
  braces : Session.BraceStyle := .nextLine
  /-- Whether the base class of the weak mappings is written too. -/
  support : Bool := true
  deriving DecidableEq, Repr

/-- The `using` directives used when none are given. -/
def defaultUsings : List String :=
  ["System", "System.Collections", "System.Collections.Generic", "System.Threading", "System.Linq"]

/-- The names used in the generated sources. -/
structure Names where
  namespaceName : String := "Reynolds.Mappings"
  usings : List String := defaultUsings
  /-- What the names of key parameters, properties and types are made from. -/
  key : String := "key"
  deriving DecidableEq, Repr

end Manifest

/-- What to generate. -/
structure Manifest where
  output : Manifest.Output := {}
  arities : Arities := .default
  names : Manifest.Names := {}
  deriving DecidableEq

namespace Manifest

/-- What is generated when nothing is asked for. -/
def default : Manifest := {}

instance : Inhabited Manifest := ⟨default⟩

/-- Whether two manifests ask for the same, however the path of the main file is written. -/
def same (left right : Manifest) : Bool :=
  Path.same left.output.path right.output.path &&
    decide ({ left with output.path := right.output.path } = right)

/-- The layout of the generated files. -/
def options (manifest : Manifest) : Session.Options where
  indent := manifest.output.indent
  braces := manifest.output.braces

/-- The name of the support file, which lies beside the main file. -/
def supportFileName : String := "WeakMapping.cs"

/-- A manifest file that says what the default manifest says. -/
def starterText : String :=
  "[output]\n" ++
  "path = \"Mapping.cs\"        # main file, relative to the output directory\n" ++
  "indent = \"tab\"             # \"tab\" or a space count: 2, 4, 8\n" ++
  "brace_style = \"next-line\"  # or \"same-line\"\n" ++
  "support = true             # also emit WeakMapping.cs\n" ++
  "\n" ++
  "[arity]\n" ++
  "min = 1\n" ++
  "max = 5\n" ++
  "\n" ++
  "[csharp]\n" ++
  "namespace = \"Reynolds.Mappings\"\n" ++
  "usings = [\"System\", \"System.Collections\", \"System.Collections.Generic\", " ++
  "\"System.Threading\", \"System.Linq\"]\n" ++
  "key = \"key\"\n"

end Manifest

end Polyadic
