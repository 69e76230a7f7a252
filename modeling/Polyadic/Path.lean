import Polyadic.Text.Split

/-!
# Paths as text

A path is a text cut into segments at its slashes. Empty segments mean nothing, and a segment `.`
means something only at the very start. All functions here look at the text alone; what a path leads
to is a matter of the disk.
-/

namespace Polyadic.Path

/-- The texts between the slashes of a path. -/
def segments (path : String) : List String :=
  (Text.split (· == '/') path.toList).map String.ofList

/-- Segments with a slash between each two. -/
def ofSegments (segments : List String) : String :=
  String.ofList (Text.join '/' (segments.map String.toList))

/-- What a segment of a path stands for. -/
inductive Component where
  | root
  | current
  | parent
  | name (text : String)
  deriving DecidableEq, Repr

/-- Whether a segment behind the first one says nothing. -/
def isIdle (segment : String) : Bool :=
  segment == "" || segment == "."

/-- What a segment says. -/
def component (segment : String) : Component :=
  if segment = "." then .current else if segment = ".." then .parent else .name segment

/-- The components of a path: its root if it has one, and what its segments say. -/
def components (path : String) : List Component :=
  match segments path with
  | [] => []
  | first :: rest =>
    let later := (rest.filter (!isIdle ·)).map component
    if first ≠ "" then component first :: later
    else if rest.isEmpty then later
    else .root :: later

/-- Whether two paths have the same components. -/
def same (left right : String) : Bool :=
  components left == components right

/-- The name that a path ends in, if it ends in one. -/
def fileName? (path : String) : Option String :=
  match (components path).getLast? with
  | some (.name text) => some text
  | _ => none

/-- The path without its last component; a root and the empty path have no such part. -/
def parent? (path : String) : Option String :=
  match segments path with
  | [] => none
  | first :: rest =>
    match rest.reverse.dropWhile isIdle with
    | [] => if first = "" then none else some ""
    | _ :: before =>
      match first, before.dropWhile isIdle with
      | "", [] => some "/"
      | first, kept => some (ofSegments (first :: kept.reverse))

/-- Whether a path starts at the root. -/
def isRooted (path : String) : Bool :=
  path.toList.head? == some '/'

/-- The second path seen from the first. -/
def append (base path : String) : String :=
  if isRooted path || base.isEmpty then path
  else if base.toList.getLast? == some '/' then base ++ path
  else base ++ "/" ++ path

/-- A path and the paths that come of it by dropping one component after the other, longest first. -/
def ancestors (path : String) : List String :=
  go (segments path).length path
where
  go : Nat → String → List String
    | 0, path => [path]
    | n + 1, path =>
      match parent? path with
      | some parent => path :: go n parent
      | none => [path]

end Polyadic.Path
