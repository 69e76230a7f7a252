import Polyadic.CommandLine.Run

/-!
# The program

A request is carried out on a disk that holds the part of the real one to which its paths lead. What
then differs is written back.
-/

namespace Polyadic.Main

/-- The path of a location. -/
def pathOf (location : Disk.Location) : String :=
  "/" ++ Path.ofSegments location

/-- The location of the working directory. -/
def workingDirectory : IO Disk.Location := do
  let path ← IO.currentDir
  return (Path.segments (toString path)).filter (!Path.isIdle ·)

/-- What is behind an open handle. A directory can be opened but not read. -/
def nodeOf (handle : IO.FS.Handle) : IO Disk.Node := do
  try return .file (← handle.readBinToEnd)
  catch _ => return .directory

/-- What is at a location, if it can be opened. -/
def probe (location : Disk.Location) : IO (Option Disk.Node) := do
  try return some (← nodeOf (← IO.FS.Handle.mk (pathOf location) .read))
  catch _ => return none

/-- Reads what lies on the way of a path. -/
def load (disk : Disk) (path : String) : IO Disk :=
  (Disk.stations (disk.start path) (Path.segments path)).foldlM (fun disk location => do
    match ← probe location with
    | some node => return disk.set location node
    | none => return disk) disk

/-- Writes the differences between two disks. -/
def store (before after : Disk) : IO Unit := do
  for (location, node) in after.nodes do
    if before.get? location ≠ some node then
      match node with
      | .directory => IO.FS.createDirAll (pathOf location)
      | .file content => IO.FS.writeBinFile (pathOf location) content
  for (location, node) in before.nodes do
    if node ≠ .directory && after.get? location = none then
      IO.FS.removeFile (pathOf location)

/-- What is reported about a failure. -/
def report : CommandLine.Failure → List String
  | .arguments => [CommandLine.usage]
  | .manifest cause => cause.message :: (cause.labels.map (·.1) ++ cause.help?.toList)
  | failure => failure.causes

/-- Carries out what arguments ask for, and answers the exit code. -/
def run (arguments : List String) : IO UInt32 := do
  let empty : Disk := { nodes := [], workingDirectory := ← workingDirectory }
  let paths (disk : Disk) : List String :=
    match CommandLine.Request.ofArguments? arguments with
    | some request => request.paths disk
    | none => []
  let disk ← (paths empty).foldlM load empty
  let disk ← (paths disk).foldlM load disk
  match CommandLine.run arguments disk with
  | .ok output changed =>
    store disk changed
    IO.print output
    return 0
  | .error failure changed =>
    store disk changed
    for line in report failure do
      IO.eprintln line
    return failure.code.toUInt32

end Polyadic.Main

/-- Carries out what the arguments ask for. -/
def main (arguments : List String) : IO UInt32 :=
  Polyadic.Main.run arguments
