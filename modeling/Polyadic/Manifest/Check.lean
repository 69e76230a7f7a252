import Polyadic.Manifest.Error
import Polyadic.Manifest.Locate
import Polyadic.Naming
import Polyadic.Path

/-!
# Judging names and paths

What a name or a path must be like to be used, said of the text alone, and the place in a source at
which a wrong one is reported.
-/

namespace Polyadic.Manifest

open Text (Span)

/-- Whether a character may start a name. -/
def isNameStart (c : Char) : Bool :=
  c.isAlpha || c == '_'

/-- Whether a character may stand in a name. -/
def isNameChar (c : Char) : Bool :=
  c.isAlphanum || c == '_'

/-- Why a text is no plain name, if it is none. -/
def nameFault? : List Char → Option NameFault
  | [] => some .empty
  | c :: rest =>
    if !isNameStart c then some .badStart
    else if !rest.all isNameChar then some .badCharacter
    else none

/-- Why a text cannot be a segment of a dotted name. -/
def segmentFault? (segment : List Char) : Option NameFault :=
  if segment.isEmpty then some .emptySegment
  else
    match nameFault? segment with
    | some fault => some fault
    | none => if Naming.isReservedWord segment then some .reservedSegment else none

/-- Why a text is no dotted name, if it is none: the first fault of its first wrong segment. -/
def dottedNameFault? (name : List Char) : Option NameFault :=
  if name.isEmpty then some .empty
  else (Text.split (· == '.') name).findSome? segmentFault?

/-- Why a text is no base for the names of keys, if it is none. -/
def keyFault? (name : List Char) : Option NameFault :=
  match nameFault? name with
  | some fault => some fault
  | none => if (name.head?.any Char.isUpper) then some .upperCase else none

/-- Whether a component leads down or nowhere. -/
def staysInside : Path.Component → Bool
  | .name _ | .current => true
  | .root | .parent => false

/-- Why a path cannot be that of the main file, if it cannot. -/
def pathFault? (output : Output) : Option PathFault :=
  if output.path.isEmpty then some .empty
  else if !(Path.components output.path).all staysInside then some .outside
  else if output.support && Path.fileName? output.path == some supportFileName then some .support
  else none

/-- A source text, the name of its file, and the tables that lead to the values in question. -/
structure Context where
  source : String
  file : String
  tables : List String := []

namespace Context

/-- The context one table further down. -/
def push (context : Context) (table : String) : Context :=
  { context with tables := context.tables ++ [table] }

/-- How a value of some kind is called in messages. -/
def describe (context : Context) (kind : String) : String :=
  if context.tables.isEmpty then kind
  else
    let path := String.intercalate "." context.tables
    s!"{kind} in '{path}'"

/-- Where the value of a key stands. -/
def assignedSpan? (context : Context) (key : String) : Option Span :=
  Manifest.assignedSpan? context.source.toList key.toList

/-- Where a text stands; if it is not found, where the value of a key stands. -/
def textSpan? (context : Context) (value key : String) : Option Span :=
  quotedTextSpan? context.source.toList value.toList <|> context.assignedSpan? key

/-- Rejects the source. -/
def reject (context : Context) (span : Option Span) (cause : Rejection) : Except Error α :=
  .error (.rejected context.file span cause)

/-- Rejects the source if a name of some kind has a fault. -/
def judge (context : Context) (fault? : List Char → Option NameFault) (name kind : String) :
    Except Error Unit :=
  match fault? name.toList with
  | none => .ok ()
  | some fault =>
    context.reject (context.textSpan? name kind) (.name name (context.describe kind) fault)

/-- Rejects the source if a text of some kind is no plain name. -/
def checkName (context : Context) (name kind : String) : Except Error Unit :=
  context.judge nameFault? name kind

/-- Rejects the source if a text of some kind is no dotted name. -/
def checkDottedName (context : Context) (name kind : String) : Except Error Unit :=
  context.judge dottedNameFault? name kind

/-- The range between two bounds, or the rejection that names the bound at fault. -/
def arities (context : Context) (min max : Nat) : Except Error Arities :=
  match Arities.ofBounds min max with
  | .ok range => .ok range
  | .error (.tooLarge max) => context.reject (context.assignedSpan? "max") (.arity (.tooLarge max))
  | .error cause => context.reject (context.assignedSpan? "min") (.arity cause)

/-- Rejects the source if its manifest has a path or a name that cannot be used. -/
def check (context : Context) (output : Output) (names : Names) : Except Error Unit := do
  match pathFault? output with
  | some fault => (context.push "output").reject (context.assignedSpan? "path") (.path fault)
  | none => pure ()
  let context := context.push "csharp"
  context.checkDottedName names.namespaceName "namespace"
  names.usings.forM (context.checkDottedName · "using")
  context.judge keyFault? names.key "key"

end Context

end Polyadic.Manifest
