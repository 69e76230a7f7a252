import Polyadic.Template.Resolve

/-!
# What stops a session

The causes for which a step of a session fails, and their texts.
-/

namespace Polyadic.Session

/-- An operation on blocks that does not fit the blocks that are open. -/
inductive Imbalance where
  /-- The construct is closed at the left margin. -/
  | closing (construct : String)
  /-- A block is left while none is entered. -/
  | leavingTop (header : String)
  /-- A block is entered that was never opened. -/
  | neverOpened
  /-- A block is closed explicitly while none is pending. -/
  | nonePending
  /-- The pass is ended inside a block. -/
  | endingInside
  /-- There is no region at all, not even the top level. -/
  | outside
  deriving DecidableEq, Repr

/-- What was being done, as the error's text names it. -/
def Imbalance.construct : Imbalance → String
  | closing construct => s!"closing {construct}"
  | leavingTop header => s!"leaving '{header}' at the top level"
  | neverOpened => "entering a block that was never opened"
  | nonePending => "closing a block with none pending"
  | endingInside => "ending the pass inside an open block"
  | outside => "emitting outside of any region"

/-- Why a step fails. -/
inductive Error where
  | placeholder (cause : Template.Error)
  | imbalance (cause : Imbalance)
  /-- There is nothing to write to. -/
  | noSink
  /-- A pass was begun during a pass. -/
  | alreadyActive
  /-- The sink or the disk refused. -/
  | write
  deriving DecidableEq, Repr

namespace Error

/-- The text of the error. -/
def message : Error → String
  | placeholder (.unbound name _) => s!"placeholder '${name}$' is not bound in any live scope"
  | placeholder (.cyclic name _) => s!"placeholder '${name}$' keeps expanding into further placeholders"
  | imbalance cause => s!"unbalanced block structure while {cause.construct}"
  | noSink => "no output sink is attached"
  | alreadyActive => "a generation pass is already active"
  | write => "failed to write generated output"

/-- The code under which the error is reported. -/
def code : Error → String
  | placeholder (.unbound ..) => "mapgen::unresolved_placeholder"
  | placeholder (.cyclic ..) => "mapgen::recursive_expansion"
  | imbalance _ => "mapgen::imbalance"
  | noSink => "mapgen::sink_unavailable"
  | alreadyActive => "mapgen::session_active"
  | write => "mapgen::io"

/-- Advice on mending the cause, where there is any. -/
def help? : Error → Option String
  | placeholder (.unbound name template) =>
    some s!"bind '{name}' in an enclosing scope before emitting: {template}"
  | placeholder (.cyclic name template) =>
    some s!"the value bound to '{name}' refers back to itself; template: {template}"
  | imbalance _ => none
  | noSink => some "call begin() before emitting and do not emit after end()"
  | alreadyActive => some "call end() before starting a new pass"
  | write => none

end Error

end Polyadic.Session
