import Polyadic.Session.Error
import Polyadic.Session.Options
import Polyadic.Session.Sink

/-!
# Writing indented lines

A writer puts lines into a sink, each behind the indentation of the current depth. It is detached
until a pass attaches a sink, and keeps depth and line count after the sink is given back. A line
counts once all of it has been taken.
-/

namespace Polyadic.Session

/-- A line writer: the sink of the current pass, the depth, and the lines written in the pass. -/
structure Writer where
  indent : Indent
  sink : Option Sink := none
  depth : Nat := 0
  lines : Nat := 0

/-- An operation of the writer; when it fails, what it has done so far stays done. -/
abbrev Writer.Action := EStateM Error Writer

namespace Writer

/-- Starts a pass on a sink at depth zero with no lines. -/
def attach (sink : Sink) : Action Unit := fun writer =>
  match writer.sink with
  | some _ => .error .alreadyActive writer
  | none => .ok () { writer with sink := some sink, depth := 0, lines := 0 }

/-- Gives the sink back flushed. A sink that cannot be flushed is given up. -/
def detach : Action Sink := fun writer =>
  match writer.sink with
  | none => .error .noSink writer
  | some sink =>
    if sink.flushFails then .error .write { writer with sink := none }
    else .ok sink { writer with sink := none }

/-- What a line consists of: the indentation, level by level, the text, and a line feed. -/
def linePieces (indent : Indent) (depth : Nat) (text : String) : List String :=
  List.replicate depth indent.unit ++ [text, "\n"]

/-- Writes one line at the current depth. -/
def writeLine (text : String) : Action Unit := fun writer =>
  match writer with
  | ⟨indent, none, depth, lines⟩ => .error .noSink ⟨indent, none, depth, lines⟩
  | ⟨indent, some sink, depth, lines⟩ =>
    match sink.writeAll (linePieces indent depth text) with
    | (true, sink) => .ok () ⟨indent, some sink, depth, lines + 1⟩
    | (false, sink) => .error .write ⟨indent, some sink, depth, lines⟩

/-- Goes one level deeper. -/
def deepen : Action Unit := fun writer =>
  .ok () { writer with depth := writer.depth + 1 }

/-- Goes back one level; `construct` says what is closed by it. -/
def dedent (construct : String) : Action Unit := fun writer =>
  match writer.depth with
  | 0 => .error (.imbalance (.closing construct)) writer
  | depth + 1 => .ok () { writer with depth }

end Writer

end Polyadic.Session
