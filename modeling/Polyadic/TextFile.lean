import Polyadic.Disk

/-!
# Text files written in one go

A text with the path at which it is to be written, and what happens to a file that is there already.
-/

namespace Polyadic

/-- What happens to a file that is there already. -/
inductive IfPresent where
  | replace
  /-- The file stays as it is. -/
  | keep
  deriving DecidableEq, Repr

/-- A text to be written. -/
structure TextFile where
  path : String
  content : String
  ifPresent : IfPresent := .replace

namespace TextFile

/-- What came of writing a file. -/
inductive Outcome where
  | written
  /-- Something was at the path already. -/
  | skipped
  deriving DecidableEq, Repr

/-- Writes the file, with the directories it lies in, as its rule for a file that is there allows. -/
def write (file : TextFile) : Disk.Action Outcome := do
  if file.ifPresent = .keep && (← get).contains file.path then
    return .skipped
  Disk.writeFile file.path file.content.toUTF8
  return .written

end TextFile

end Polyadic
