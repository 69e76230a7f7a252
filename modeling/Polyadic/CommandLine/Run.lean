import Polyadic.CommandLine.Request
import Polyadic.Generator
import Polyadic.Manifest.Read
import Polyadic.TextFile

/-!
# Running commands

A request is carried out on a disk and answers a text to print, or fails. Every failure has an exit
code and the texts of its causes.
-/

namespace Polyadic.CommandLine

/-- Why a request is not carried out. -/
inductive Failure where
  /-- The arguments make no request. -/
  | arguments
  /-- The manifest file is rejected. -/
  | manifest (cause : Manifest.Error)
  /-- The bounds given in place of those of the manifest make no range with them. -/
  | arity (cause : ArityFault)
  | render (cause : Generator.Failure)
  | generate (cause : Generator.Failure)
  /-- The manifest file cannot be written. -/
  | write (path : String)
  /-- There is a manifest file already. -/
  | alreadyThere (path : String)

namespace Failure

/-- The exit code. -/
def code : Failure → Nat
  | arguments => 2
  | _ => 1

/-- The texts of the failure and its causes, outermost first. Rejected arguments and manifests are
reported in a way of their own. -/
def causes : Failure → List String
  | arguments | manifest _ => []
  | arity cause => ["Invalid arity override", cause.message]
  | render cause => "Failed to render code" :: cause.chain
  | generate cause => "Failed to generate code" :: cause.chain
  | write path => [s!"Failed to write {path}"]
  | alreadyThere path => [s!"{path} already exists (use --force to overwrite)"]

end Failure

/-- Carries out a request. -/
abbrev Action := EStateM Failure Disk

/-- Each line with its end. -/
def printed (lines : List String) : String :=
  String.join (lines.map (· ++ "\n"))

/-- The manifest in a file, or the default one if there is no such file. -/
def manifestOrDefault (disk : Disk) (path : String) : Except Manifest.Error Manifest :=
  if disk.contains path then Manifest.ofFile disk path else .ok .default

/-- A text of several lines as one entry to print, which ends its last line itself. -/
def verbatim (text : String) : String :=
  match text.toList.reverse with
  | '\n' :: front => String.ofList front.reverse
  | _ => text

/-- A line that names what follows. -/
def divider (label : String) : String :=
  s!"── {label} ──"

/-- How many declarations there are for each arity. -/
def declarationCount : Nat := Catalogue.Declaration.all.length

/-- What is printed about a checked manifest. -/
def checkSummary (config : String) (manifest : Manifest) : String :=
  printed <|
    [s!"✓ {config} is valid", "",
     s!"Namespace: {manifest.names.namespaceName}",
     s!"Arities: {manifest.arities.text} ({declarationCount} declarations each)", "",
     "Files:"] ++ manifest.paths.map fun path => s!"  - {path}"

/-- What is printed about written files. -/
def generateSummary (manifest : Manifest) (report : Generator.Report) : String :=
  printed <|
    [s!"Namespace: {manifest.names.namespaceName}", s!"Arities: {report.arities.text}", "",
     "Generated:"] ++ report.files.map fun file => s!"  + {file.path} ({file.lines} lines)"

/-- What is printed of files that are not written. -/
def previewSummary (files : List Generator.RenderedFile) : String :=
  let plural := if files.length = 1 then "" else "s"
  printed <|
    (files.flatMap fun file => [divider file.path, verbatim file.content]) ++
      [divider "Summary", s!"{files.length} file{plural} would be generated"]

/-- What is printed about a new manifest file. -/
def initSummary (path : String) : String :=
  printed [s!"Created {path}", "", s!"Next: mapgen generate -c {path}"]

/-- The text that explains how to use the program. -/
def usage : String :=
  printed
    ["Generate arity-expanded C# mapping declarations", "",
     "Usage: mapgen [-v]... <COMMAND>", "",
     "Commands:",
     "  generate [-c FILE] [-o DIR] [--min N] [--max N] [--dry-run]",
     "  check [-c FILE]",
     "  init [DIR] [--force]",
     "  completions bash|elvish|fish|powershell|zsh",
     "  help [COMMAND]"]

/-- A script that completes the names of the commands. -/
def completions (shell : Shell) : String :=
  let names := String.intercalate " " commandNames
  match shell with
  | .bash => printed [s!"complete -W \"{names}\" mapgen"]
  | .elvish =>
    printed [s!"set edit:completion:arg-completer[mapgen] = \x7b |@words| put {names} \x7d"]
  | .fish => printed [s!"complete -c mapgen -n __fish_use_subcommand -a \"{names}\""]
  | .powershell =>
    printed
      ["Register-ArgumentCompleter -Native -CommandName mapgen -ScriptBlock \x7b",
       s!"  -split \"{names}\"", "\x7d"]
  | .zsh => printed ["#compdef mapgen", s!"_arguments \"1:command:({names})\""]

/-- The manifest to generate from: that of the file, with the bounds that are given. -/
def chosenManifest (disk : Disk) (what : Generate) : Except Failure Manifest := do
  let manifest ← (manifestOrDefault disk what.config).mapError .manifest
  let arities ← (manifest.arities.replaceBounds what.min what.max).mapError .arity
  return { manifest with arities }

/-- Prints or writes the files of a manifest. -/
def generate (what : Generate) : Action String := fun disk =>
  match chosenManifest disk what with
  | .error e => .error e disk
  | .ok manifest =>
    if what.dryRun then
      match Generator.preview manifest with
      | .error e => .error (.render e) disk
      | .ok files => .ok (previewSummary files) disk
    else
      match Generator.generate manifest what.output disk with
      | .error e disk => .error (.generate e) disk
      | .ok report disk => .ok (generateSummary manifest report) disk

/-- Judges a manifest file. -/
def check (config : String) : Action String := fun disk =>
  match Manifest.ofFile disk config with
  | .error e => .error (.manifest e) disk
  | .ok manifest => .ok (checkSummary config manifest) disk

/-- The manifest file that is written into a directory. -/
def starterFile (directory : String) (force : Bool) : TextFile where
  path := Path.append directory "mapgen.toml"
  content := Manifest.starterText
  ifPresent := if force then .replace else .keep

/-- Writes a manifest file into a directory. -/
def init (directory : String) (force : Bool) : Action String := fun disk =>
  let file := starterFile directory force
  match file.write disk with
  | .error _ disk => .error (.write file.path) disk
  | .ok .skipped disk => .error (.alreadyThere file.path) disk
  | .ok .written disk => .ok (initSummary file.path) disk

/-- Carries out a request and answers what is printed. -/
def Request.run : Request → Action String
  | .generate what => CommandLine.generate what
  | .check config => CommandLine.check config
  | .init directory force => CommandLine.init directory force
  | .completions shell => pure (CommandLine.completions shell)
  | .help => pure usage
  | .version => pure "mapgen 0.1.0\n"

/-- Carries out what arguments ask for. -/
def run (arguments : List String) : Action String :=
  match Request.ofArguments? arguments with
  | none => throw .arguments
  | some request => request.run

/-- The paths to which a request may lead, as far as a disk tells. -/
def Request.paths (disk : Disk) : Request → List String
  | .generate what =>
    what.config ::
      match chosenManifest disk what with
      | .ok manifest => manifest.paths.map (Path.append what.output)
      | .error _ => []
  | .check config => [config]
  | .init directory force => [(starterFile directory force).path]
  | .completions _ | .help | .version => []

end Polyadic.CommandLine
