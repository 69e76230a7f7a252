import Polyadic.Disk
import Polyadic.Manifest.Check
import Polyadic.Manifest.Decode
import Polyadic.Toml.Document

/-!
# Manifests from files

A text is first read as a document, then decoded, then judged. Each stage is reached only if the ones
before it found nothing wrong.
-/

namespace Polyadic

namespace Manifest

/-- What the text of a file says, before it is judged. -/
def Draft.ofText (text file : String) : Except Error Draft :=
  match Toml.parse? text.toList with
  | none => .error (.rejected file none .malformed)
  | some table =>
    match Draft.ofTable table with
    | .error fault => .error (.rejected file fault.span (.undecodable fault.cause))
    | .ok draft => .ok draft

/-- Judges what a file says. -/
def Draft.judge (context : Context) (draft : Draft) : Except Error Manifest := do
  let arities ← (context.push "arity").arities draft.min draft.max
  context.check draft.output draft.names
  return { output := draft.output, arities, names := draft.names }

/-- The manifest that the text of a file says. -/
def ofText (text file : String) : Except Error Manifest := do
  (← Draft.ofText text file).judge { source := text, file }

/-- A manifest and the file that says it. -/
structure File where
  path : String
  content : String
  manifest : Manifest

/-- The manifest file at a path. -/
def openFile (disk : Disk) (path : String) : Except Error File := do
  match disk.readText path with
  | .error _ => throw (.unreadable path)
  | .ok content => return { path, content, manifest := ← ofText content path }

/-- The manifest in the file at a path. -/
def ofFile (disk : Disk) (path : String) : Except Error Manifest :=
  return (← openFile disk path).manifest

end Manifest

end Polyadic
