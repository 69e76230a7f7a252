import Polyadic.Session.Program

/-!
# Traces

What can be seen of a run: for every step, in the order in which steps are completed, its answer and
the state of the session after it. A block whose opening was written is also seen when it is entered.
-/

namespace Polyadic.Session

/-- What can be seen of a session. -/
structure Snapshot where
  active : Bool
  depth : Nat
  lines : Nat
  pending : Option Block
  deriving DecidableEq, Repr

/-- What can be seen of a session now. -/
def snapshot (session : Session) : Snapshot where
  active := session.isActive
  depth := session.writer.depth
  lines := session.writer.lines
  pending := session.regions.pending

/-- What an entry of a trace reports. -/
inductive Event where
  /-- The body of a block starts. -/
  | entered
  /-- A step is completed. -/
  | completed (step : Step) (result : Except Error Answer)

/-- An entry of a trace: what happened, and the state after it. -/
structure Entry where
  event : Event
  state : Snapshot

/-- The answer or failure of an operation, and the machine after it. -/
def Machine.outcome (act : Machine.Action α) (machine : Machine) : Except Error α × Machine :=
  match act machine with
  | .ok a machine => (.ok a, machine)
  | .error e machine => (.error e, machine)

/-- The entry for a completed step. -/
def Step.entry (step : Step) (machine : Machine) : Entry :=
  let (result, machine) := Machine.outcome step.exec machine
  ⟨.completed step result, machine.session.snapshot⟩

mutual

/-- The entries of a step: those of its body, if it has one, and its own. -/
def Step.trace (step : Step) (machine : Machine) : List Entry :=
  match step with
  | .block header suffix body =>
    match Machine.enterBlock header suffix machine with
    | .ok _ inner =>
      ⟨.entered, inner.session.snapshot⟩ ::
        (Step.traceAll body inner ++ [Step.entry (.block header suffix body) machine])
    | .error _ _ => [Step.entry (.block header suffix body) machine]
  | .scoped scope body =>
    match Machine.onSession (Action.pushScope scope) machine with
    | .ok () inner => Step.traceAll body inner ++ [Step.entry (.scoped scope body) machine]
    | .error _ _ => [Step.entry (.scoped scope body) machine]
  | .attempt body => Step.traceAll body machine ++ [Step.entry (.attempt body) machine]
  | step => [step.entry machine]

/-- The entries of steps that run one after the other up to the first that fails. -/
def Step.traceAll (steps : List Step) (machine : Machine) : List Entry :=
  match steps with
  | [] => []
  | step :: rest =>
    Step.trace step machine ++
      match Step.exec step machine with
      | .ok _ machine => Step.traceAll rest machine
      | .error _ _ => []

end

/-- The entries of steps that run one after the other whether or not they fail, and the machine at the
end. -/
def Machine.watch (machine : Machine) : List Step → List Entry × Machine
  | [] => ([], machine)
  | step :: rest =>
    let entries := step.trace machine
    let (later, final) := (Machine.outcome step.exec machine).2.watch rest
    (entries ++ later, final)

end Polyadic.Session
