import Polyadic.Assoc
import Polyadic.Path

/-!
# Disks

A disk is a tree of directories and files without links, with a working directory from which relative
paths start. A path is followed segment by segment: each one but the last has to lead to a directory,
`..` leads to the directory above (above the root there is none but the root), and names and paths
have a largest length. Operations that fail keep what they have done so far.
-/

namespace Polyadic

namespace Disk

/-- Where something is: the names that lead to it from the root. -/
abbrev Location := List String

/-- What can be at a location. -/
inductive Node where
  | directory
  | file (content : ByteArray)

instance : DecidableEq Node
  | .directory, .directory => isTrue rfl
  | .directory, .file _ => isFalse nofun
  | .file _, .directory => isFalse nofun
  | .file a, .file b =>
    if h : a.data = b.data then isTrue (congrArg Node.file (ByteArray.ext h))
    else isFalse fun same => h (congrArg ByteArray.data (Node.file.inj same))

/-- Why a path cannot be used. -/
inductive Error where
  | notFound
  | notDirectory
  | isDirectory
  | alreadyThere
  | tooLong
  /-- The path holds the character that ends names. -/
  | badPath
  /-- The content of the file is not text. -/
  | notText
  deriving DecidableEq, Repr

end Disk

/-- A tree of files, and the location of the working directory. -/
structure Disk where
  nodes : List (Disk.Location × Disk.Node)
  workingDirectory : Disk.Location

namespace Disk

/-- An empty working directory. -/
def empty : Disk where
  nodes := [(["work"], .directory)]
  workingDirectory := ["work"]

instance : Inhabited Disk := ⟨empty⟩

/-- What is at a location; the root is always a directory. -/
def get? (disk : Disk) (location : Location) : Option Node :=
  if location = [] then some .directory else disk.nodes.lookup location

/-- Puts something at a location. -/
def set (disk : Disk) (location : Location) (node : Node) : Disk :=
  { disk with nodes := Assoc.set location node disk.nodes }

/-- Removes what is at a location. -/
def erase (disk : Disk) (location : Location) : Disk :=
  { disk with nodes := Assoc.erase location disk.nodes }

/-- The longest name, in bytes. -/
def maxNameLength : Nat := 255

/-- The longest path, in bytes. -/
def maxPathLength : Nat := 4095

/-- Follows segments from a directory to what they lead to. -/
def follow (disk : Disk) : Location → List String → Except Error (Location × Node)
  | location, [] => .ok (location, .directory)
  | location, segment :: rest =>
    if Path.isIdle segment then follow disk location rest
    else if segment = ".." then follow disk location.dropLast rest
    else if maxNameLength < segment.utf8ByteSize then .error .tooLong
    else
      match disk.get? (location ++ [segment]) with
      | none => .error .notFound
      | some .directory => follow disk (location ++ [segment]) rest
      | some (.file content) =>
        if rest.isEmpty then .ok (location ++ [segment], .file content) else .error .notDirectory

/-- Refuses the paths that no system takes. -/
def checkPath (path : String) : Except Error Unit :=
  if path.isEmpty then .error .notFound
  else if path.toList.contains '\x00' then .error .badPath
  else if maxPathLength < path.utf8ByteSize then .error .tooLong
  else .ok ()

/-- The location from which a path starts. -/
def start (disk : Disk) (path : String) : Location :=
  if Path.isRooted path then [] else disk.workingDirectory

/-- The locations to which segments lead one after the other, whatever is there. -/
def stations : Location → List String → List Location
  | location, [] => [location]
  | location, segment :: rest =>
    if Path.isIdle segment then stations location rest
    else if segment = ".." then location :: stations location.dropLast rest
    else location :: stations (location ++ [segment]) rest

/-- What a path leads to. -/
def find (disk : Disk) (path : String) : Except Error (Location × Node) := do
  checkPath path
  disk.follow (disk.start path) (Path.segments path)

/-- The location that the last segment names in the directory to which the others lead. -/
def place (disk : Disk) (path : String) (segments : List String) : Except Error Location := do
  checkPath path
  let (location, node) ← disk.follow (disk.start path) segments.dropLast
  match node, segments.getLast? with
  | .file _, _ => throw .notDirectory
  | .directory, none => throw .alreadyThere
  | .directory, some last =>
    if Path.isIdle last || last == ".." then throw .isDirectory
    else if maxNameLength < last.utf8ByteSize then throw .tooLong
    else pure (location ++ [last])

/-- Whether a path leads to something. -/
def contains (disk : Disk) (path : String) : Bool :=
  match disk.find path with
  | .ok _ => true
  | .error _ => false

/-- Whether a path leads to a directory. -/
def isDirectory (disk : Disk) (path : String) : Bool :=
  match disk.find path with
  | .ok (_, .directory) => true
  | _ => false

/-- The content of the file to which a path leads. -/
def readBytes (disk : Disk) (path : String) : Except Error ByteArray := do
  match ← disk.find path with
  | (_, .file content) => pure content
  | (_, .directory) => throw .isDirectory

/-- The text of the file to which a path leads. -/
def readText (disk : Disk) (path : String) : Except Error String := do
  match String.fromUTF8? (← disk.readBytes path) with
  | some text => pure text
  | none => throw .notText

/-- An operation that changes a disk. -/
abbrev Action := EStateM Error Disk

/-- Makes one directory where nothing is yet. -/
def makeDirectory (path : String) : Action Unit := fun disk =>
  let segments := ((Path.segments path).reverse.dropWhile (· == "")).reverse
  match disk.place path segments with
  | .error .isDirectory => .error .alreadyThere disk
  | .error e => .error e disk
  | .ok location =>
    match disk.get? location with
    | some _ => .error .alreadyThere disk
    | none => .ok () (disk.set location .directory)

/-- Makes the first of the paths a directory, and the later ones before it as far as they are missing. -/
def makeFirst : List String → Action Unit
  | [] => pure ()
  | path :: shorter => fun disk =>
    if path.isEmpty then .ok () disk
    else
      match makeDirectory path disk with
      | .ok () disk => .ok () disk
      | .error .notFound disk =>
        match makeFirst shorter disk with
        | .error e disk => .error e disk
        | .ok () disk =>
          match makeDirectory path disk with
          | .ok () disk => .ok () disk
          | .error e disk => if disk.isDirectory path then .ok () disk else .error e disk
      | .error e disk => if disk.isDirectory path then .ok () disk else .error e disk

/-- Makes a directory and those above it, unless they are there. -/
def makeDirectories (path : String) : Action Unit :=
  makeFirst (Path.ancestors path)

/-- Makes the directory that a path lies in. -/
def makeParent (path : String) : Action Unit :=
  match Path.parent? path with
  | none => pure ()
  | some parent => makeDirectories parent

/-- Makes an empty file, also in the place of a file that is there; answers where it is. -/
def createFile (path : String) : Action Location := fun disk =>
  match disk.place path (Path.segments path) with
  | .error e => .error e disk
  | .ok location =>
    match disk.get? location with
    | some .directory => .error .isDirectory disk
    | _ => .ok location (disk.set location (.file .empty))

/-- Writes a whole file, in a directory that is made if need be. -/
def writeFile (path : String) (content : ByteArray) : Action Unit := do
  makeParent path
  let location ← createFile path
  modify (·.set location (.file content))

/-- Removes the file to which a path leads. -/
def removeFile (path : String) : Action Unit := fun disk =>
  match disk.find path with
  | .ok (location, .file _) => .ok () (disk.erase location)
  | .ok (_, .directory) => .error .isDirectory disk
  | .error e => .error e disk

/-- Everything below the working directory, by its path from there. -/
def listing (disk : Disk) : List (String × Node) :=
  disk.nodes.filterMap fun (location, node) =>
    if disk.workingDirectory.isPrefixOf location && location ≠ disk.workingDirectory then
      some (Path.ofSegments (location.drop disk.workingDirectory.length), node)
    else none

end Disk

end Polyadic
