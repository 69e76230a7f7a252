import Polyadic.Session.Writer

/-!
# Sessions

A session turns statements and blocks into lines. Its output lies in nested *regions*: the top level,
and one for the body of each entered block. A region may have one *pending* block, whose opening is
written and whose closing brace is not; it is closed by whatever comes next in the region, by leaving
the region, by an explicit close or by the end of the pass. Texts are resolved against the live
scopes before they are written.
-/

namespace Polyadic

namespace Session

/-- A block that was opened: its resolved header, and the text behind its closing brace. -/
structure Block where
  header : String
  suffix : String
  deriving DecidableEq, Repr

/-- The pending block of each region, innermost first; the last region is the top level. -/
abbrev Regions := List (Option Block)

namespace Regions

/-- The regions at the start of a pass: the top level with nothing pending. -/
def top : Regions := [none]

/-- The pending block of the current region. -/
def pending (regions : Regions) : Option Block :=
  regions.head?.join

/-- The pending blocks of the regions around the current one. -/
def enclosing (regions : Regions) : Regions :=
  regions.tail

/-- How many blocks are entered. -/
def entered (regions : Regions) : Nat :=
  regions.length - 1

end Regions

end Session

/-- A session: where the braces go, the writer, the regions and the live scopes, innermost first. -/
structure Session where
  braces : Session.BraceStyle
  writer : Session.Writer
  regions : Session.Regions := .top
  scopes : Template.Scopes := []

namespace Session

/-- A session with the given layout, before its first pass. -/
def ofOptions (options : Options) : Session where
  braces := options.braces
  writer := { indent := options.indent }

/-- Whether a pass is going on. -/
def isActive (session : Session) : Bool :=
  session.writer.sink.isSome

/-- An operation of the session; when it fails, what it has done so far stays done. -/
abbrev Action := EStateM Error Session

namespace Action

/-- Runs an operation of the writer. -/
def ofWriter (act : Writer.Action α) : Action α := fun ⟨braces, writer, regions, scopes⟩ =>
  match act writer with
  | .ok a writer => .ok a ⟨braces, writer, regions, scopes⟩
  | .error e writer => .error e ⟨braces, writer, regions, scopes⟩

/-- Takes the pending block out of the current region. -/
def takePending : Action (Option Block) := fun session =>
  match session.regions with
  | [] => .error (.imbalance .outside) session
  | pending :: enclosing => .ok pending { session with regions := none :: enclosing }

/-- Makes a block the pending one of the current region. -/
def setPending (block : Block) : Action Unit := fun session =>
  match session.regions with
  | [] => .error (.imbalance .outside) session
  | _ :: enclosing => .ok () { session with regions := some block :: enclosing }

/-- Starts a region inside the current one. -/
def pushRegion : Action Unit := fun session =>
  .ok () { session with regions := none :: session.regions }

/-- Forgets all regions and starts again at the top level. -/
def resetRegions : Action Unit := fun session =>
  .ok () { session with regions := .top }

/-- Pushes a scope as the innermost one. -/
def pushScope (scope : Template.Scope) : Action Unit := fun session =>
  .ok () { session with scopes := scope :: session.scopes }

/-- Drops the innermost scope. -/
def popScope : Action Unit := fun session =>
  .ok () { session with scopes := session.scopes.tail }

/-- The template with its placeholders replaced. -/
def resolve (template : String) : Action String := fun session =>
  match Template.resolve session.scopes template with
  | .ok text => .ok text session
  | .error cause => .error (.placeholder cause) session

/-- Writes the closing brace of a block, one level up. -/
def writeClosing (block : Block) : Action Unit := do
  ofWriter (Writer.dedent s!"block '{block.header}'")
  ofWriter (Writer.writeLine ("\x7d" ++ block.suffix))

/-- Closes the pending block of the current region, if there is one. -/
def closeIfPending : Action Unit := do
  match ← takePending with
  | none => pure ()
  | some block => writeClosing block

/-- The lines that open a block. -/
def openingLines (braces : BraceStyle) (header : String) : List String :=
  match braces with
  | .sameLine => [if header.isEmpty then "\x7b" else header ++ " \x7b"]
  | .nextLine => [header, "\x7b"]

/-- Writes lines one after the other. -/
def writeLines : List String → Action Unit
  | [] => pure ()
  | line :: lines => do
    ofWriter (Writer.writeLine line)
    writeLines lines

/-- Starts a pass at the top level on a sink. -/
def begin (sink : Sink) : Action Unit := do
  ofWriter (Writer.attach sink)
  resetRegions

/-- Prepares the end of the pass: no block may be entered, and a pending one is closed. -/
def wrapUp : Action Unit := do
  let session ← get
  if !session.isActive then throw .noSink
  if session.regions.entered ≠ 0 then throw (.imbalance .endingInside)
  closeIfPending

/-- Ends the pass and gives the sink back. -/
def finish : Action Sink := do
  wrapUp
  ofWriter Writer.detach

/-- Emits a statement: the resolved text and the terminator on one line. -/
def statement (template : String) (terminator : String := ";") : Action Unit := do
  closeIfPending
  let line ← resolve template
  ofWriter (Writer.writeLine (line ++ terminator))

/-- Closes what is pending in the region and writes the lines that open a block; answers its resolved
header. The region has nothing pending then. -/
def writeOpening (template : String) : Action String := do
  closeIfPending
  let header ← resolve template
  writeLines (openingLines (← get).braces header)
  ofWriter Writer.deepen
  pure header

/-- Opens a block without entering it; it is pending from then on. -/
def openBlock (header suffix : String) : Action Unit := do
  let header ← writeOpening header
  setPending ⟨header, suffix⟩

/-- Closes the pending block of the current region. -/
def closeBlock : Action Unit := do
  match ← takePending with
  | none => throw (.imbalance .nonePending)
  | some block => writeClosing block

/-- Starts a region for the body of the pending block, which is pending no longer. -/
def enter : Action Block := do
  match ← takePending with
  | none => throw (.imbalance .neverOpened)
  | some block =>
    pushRegion
    pure block

/-- Goes back to the region around the body of a block without writing anything. -/
def abandon (block : Block) : Action Unit := fun session =>
  match session.regions with
  | [_] => .error (.imbalance (.leavingTop block.header)) session
  | regions => .ok () { session with regions := regions.tail }

/-- Completes the body of a block: closes what is pending in its region, leaves it and closes the block. -/
def complete (block : Block) : Action Unit := do
  closeIfPending
  abandon block
  writeClosing block

end Action

end Session

end Polyadic
