import Polyadic.GeneratedFile

/-!
# Generating files

The files of a manifest are rendered in memory (`preview`) or written to a disk one after the other
(`generate`). A pass that fails once its file was made leaves nothing at the place of the file.
-/

namespace Polyadic

namespace Generator

open Session (Machine Step)

/-- What was being done to a file when it failed. -/
inductive Stage where
  /-- Rendering in memory. -/
  | render
  /-- Making the file. -/
  | create
  /-- Emitting the content. -/
  | emit
  /-- Ending the pass. -/
  | write
  deriving DecidableEq, Repr

/-- A failure: what was being done, to which file, and why it failed. -/
structure Failure where
  stage : Stage
  path : String
  cause : Session.Error
  deriving DecidableEq, Repr

/-- The text of the failure, without its cause. -/
def Failure.message (failure : Failure) : String :=
  match failure.stage with
  | .render => s!"failed to render {failure.path}"
  | .create => s!"failed to create {failure.path}"
  | .emit => s!"failed to generate {failure.path}"
  | .write => s!"failed to write {failure.path}"

/-- The texts of the failure and its cause. -/
def Failure.chain (failure : Failure) : List String :=
  [failure.message, failure.cause.message]

/-- A file rendered in memory. -/
structure RenderedFile where
  path : String
  content : String
  deriving DecidableEq, Repr

/-- A written file and how many lines it has. -/
structure StoredFile where
  path : String
  lines : Nat
  deriving DecidableEq, Repr

/-- What a run has written. -/
structure Report where
  files : List StoredFile
  arities : Arities
  deriving DecidableEq

/-- The number of lines in all files. -/
def Report.lineCount (report : Report) : Nat :=
  report.files.foldr (fun file total => file.lines + total) 0

/-- Renders one file. -/
def render (manifest : Manifest) (file : GeneratedFile) : Except Failure RenderedFile :=
  let path := file.path manifest
  match Session.render manifest.options (file.program manifest) with
  | .ok content => .ok ⟨path, content⟩
  | .error cause => .error ⟨.render, path, cause⟩

/-- Renders the files of a manifest without touching a disk. -/
def preview (manifest : Manifest) : Except Failure (List RenderedFile) :=
  (GeneratedFile.ofManifest manifest).mapM (render manifest)

/-- The disk after a failed pass was given up and its file removed. -/
def discard (path : String) (machine : Machine) : Disk :=
  let disk :=
    match Machine.finish machine with
    | .ok _ machine => machine.disk
    | .error _ machine => machine.disk
  match Disk.removeFile path disk with
  | .ok () disk => disk
  | .error _ disk => disk

/-- Runs a program as one pass into a file and answers how many lines it wrote. -/
def runPass (options : Session.Options) (path : String) (program : Session.Program) :
    EStateM Failure Disk Nat := fun disk =>
  match Machine.begin (.file path) (.ofOptions options disk) with
  | .error cause machine => .error ⟨.create, path, cause⟩ machine.disk
  | .ok () machine =>
    match Step.execAll program machine with
    | .error cause machine => .error ⟨.emit, path, cause⟩ (discard path machine)
    | .ok () machine =>
      match Machine.finish machine with
      | .error cause machine => .error ⟨.write, path, cause⟩ (discard path machine)
      | .ok _ machine => .ok machine.session.writer.lines machine.disk

/-- Writes one file of a manifest below a directory. -/
def writeFile (manifest : Manifest) (directory : String) (file : GeneratedFile) :
    EStateM Failure Disk StoredFile := do
  let path := Path.append directory (file.path manifest)
  let lines ← runPass manifest.options path (file.program manifest)
  pure ⟨path, lines⟩

/-- Writes the files of a manifest below a directory. -/
def generate (manifest : Manifest) (directory : String) : EStateM Failure Disk Report := do
  let files ← (GeneratedFile.ofManifest manifest).mapM (writeFile manifest directory)
  pure ⟨files, manifest.arities⟩

end Generator

end Polyadic
