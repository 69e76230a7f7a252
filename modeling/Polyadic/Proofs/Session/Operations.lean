import Polyadic.Proofs.Session.Outcome
import Polyadic.Proofs.Session.Tree

/-!
# Operations put together

The operations of a session are put together from a few primitive ones, which write a line, change the depth or
the regions, or resolve a template. A property that all of these have, and that is kept when operations are put
together (`Carries`), is one of every operation that the steps of a program need: of statements, of opening,
entering, leaving and closing blocks, and of what precedes the end of a pass.

The steps in turn are put together from operations of the session, and from the begin and the end of a pass. A
property of operations of a machine that is kept when these are put together (`Machine.Carries`) is one of every
step that emits, and of every step at all if the begin and the end have it too (`Machine.Carries.exec`).
-/

namespace Polyadic.Session

/-- A property of operations that the primitive ones have and that is kept along sequences. What looks at the
session looks only at its regions, at its braces and at whether it is active. -/
structure Carries (P : ∀ {α : Type}, Action α → Prop) : Prop where
  pure {α : Type} (a : α) : P (pure a : Action α)
  throw {α : Type} (e : Error) : P (throw e : Action α)
  bind {α β : Type} {act : Action α} {f : α → Action β} : P act → (∀ a, P (f a)) → P (act >>= f)
  get_bind {α : Type} {f : Session → Action α} :
    (∀ s s' : Session, s.isActive = s'.isActive → s.braces = s'.braces → s.regions = s'.regions → f s = f s') →
    (∀ s, P (f s)) → P (get >>= f)
  writeLine (text : String) : P (Action.ofWriter (Writer.writeLine text))
  dedent (construct : String) : P (Action.ofWriter (Writer.dedent construct))
  deepen : P (Action.ofWriter Writer.deepen)
  takePending : P Action.takePending
  setPending (block : Block) : P (Action.setPending block)
  pushRegion : P Action.pushRegion
  resolve (template : String) : P (Action.resolve template)
  abandon (block : Block) : P (Action.abandon block)

namespace Carries

variable {P : ∀ {α : Type}, Action α → Prop}

lemma ite {α : Type} {c : Prop} [Decidable c] {act act' : Action α} (h : P act) (h' : P act') :
    P (if c then act else act') := by
  split
  · exact h
  · exact h'

lemma writeClosing (carries : Carries @P) (block : Block) : P (Action.writeClosing block) :=
  carries.bind (carries.dedent _) fun _ => carries.writeLine _

lemma closeIfPending (carries : Carries @P) : P Action.closeIfPending := by
  refine carries.bind carries.takePending fun pending => ?_
  cases pending with
  | none => exact carries.pure ()
  | some block => exact carries.writeClosing block

lemma writeLines (carries : Carries @P) (lines : List String) : P (Action.writeLines lines) := by
  induction lines with
  | nil => exact carries.pure ()
  | cons line lines ih => exact carries.bind (carries.writeLine line) fun _ => ih

lemma statement (carries : Carries @P) (template terminator : String) :
    P (Action.statement template terminator) :=
  carries.bind carries.closeIfPending fun _ => carries.bind (carries.resolve template) fun _ =>
    carries.writeLine _

lemma writeOpening (carries : Carries @P) (header : String) : P (Action.writeOpening header) := by
  refine carries.bind carries.closeIfPending fun _ => ?_
  refine carries.bind (carries.resolve header) fun text => ?_
  refine carries.get_bind (fun s s' _ braces _ => by rw [braces]) fun s => ?_
  exact carries.bind (carries.writeLines _) fun _ => carries.bind carries.deepen fun _ => carries.pure _

lemma openBlock (carries : Carries @P) (header suffix : String) : P (Action.openBlock header suffix) :=
  carries.bind (carries.writeOpening header) fun _ => carries.setPending _

lemma closeBlock (carries : Carries @P) : P Action.closeBlock := by
  refine carries.bind carries.takePending fun pending => ?_
  cases pending with
  | none => exact carries.throw _
  | some block => exact carries.writeClosing block

lemma enter (carries : Carries @P) : P Action.enter := by
  refine carries.bind carries.takePending fun pending => ?_
  cases pending with
  | none => exact carries.throw _
  | some block => exact carries.bind carries.pushRegion fun _ => carries.pure block

/-- Opening a block and entering it. -/
lemma enterBlock (carries : Carries @P) (header suffix : String) :
    P (do Action.openBlock header suffix; Action.enter) :=
  carries.bind (carries.openBlock header suffix) fun _ => carries.enter

lemma complete (carries : Carries @P) (block : Block) : P (Action.complete block) :=
  carries.bind carries.closeIfPending fun _ => carries.bind (carries.abandon block) fun _ =>
    carries.writeClosing block

lemma wrapUp (carries : Carries @P) : P Action.wrapUp := by
  refine carries.get_bind (fun s s' active _ regions => by rw [active, regions]) fun s => ?_
  have closing := carries.closeIfPending
  refine ite (carries.bind (carries.throw _) fun _ => ?_) ?_
  · exact ite (carries.bind (carries.throw _) fun _ => closing) closing
  · exact ite (carries.bind (carries.throw _) fun _ => closing) closing

end Carries

namespace Machine

/-- A property of operations of a machine that those of its session have and that is kept when they are put
together. -/
structure Carries (P : ∀ {α : Type}, Machine.Action α → Prop) : Prop where
  pure {α : Type} (a : α) : P (pure a : Machine.Action α)
  bind {α β : Type} {act : Machine.Action α} {f : α → Machine.Action β} : P act → (∀ a, P (f a)) → P (act >>= f)
  onSession {α : Type} (act : Session.Action α) : P (onSession act)
  around {α : Type} {body : Machine.Action α} {onSuccess onFailure : Machine.Action Unit} :
    P body → P onSuccess → P onFailure → P (around body onSuccess onFailure)
  attempt {body : Machine.Action Unit} : P body → P (attempt body)

namespace Carries

variable {P : ∀ {α : Type}, Machine.Action α → Prop}

lemma inside (carries : Carries @P) {α : Type} {body : Machine.Action α} (block : Block) (h : P body) :
    P (inside block body) :=
  carries.around h (carries.onSession _) (carries.onSession _)

lemma inScope (carries : Carries @P) {α : Type} {body : Machine.Action α} (scope : Template.Scope) (h : P body) :
    P (inScope scope body) :=
  carries.bind (carries.onSession _) fun _ => carries.around h (carries.onSession _) (carries.onSession _)

mutual

/-- A step has the property if it emits, or if the begin and the end of a pass have it. -/
theorem exec (carries : Carries @P) (step : Step) (h : step.Emits ∨ (∀ target, P (begin target)) ∧ P finish) :
    P step.exec := by
  cases step with
  | begin target =>
    have passes := h.resolve_left id
    exact carries.bind (passes.1 target) fun _ => carries.pure _
  | finish =>
    have passes := h.resolve_left id
    exact carries.bind passes.2 fun _ => carries.pure _
  | statement template terminator => exact carries.bind (carries.onSession _) fun _ => carries.pure _
  | openBlock header suffix => exact carries.bind (carries.onSession _) fun _ => carries.pure _
  | closeBlock => exact carries.bind (carries.onSession _) fun _ => carries.pure _
  | resolve template => exact carries.bind (carries.onSession _) fun _ => carries.pure _
  | emptyBlock header =>
    exact carries.bind (carries.onSession _) fun block => carries.inside block (carries.pure _)
  | block header suffix body =>
    refine carries.bind (carries.onSession _) fun block => ?_
    exact carries.bind (carries.inside block (execAll carries body h)) fun _ => carries.pure _
  | «scoped» scope body =>
    exact carries.bind (carries.inScope scope (execAll carries body h)) fun _ => carries.pure _
  | attempt body =>
    exact carries.bind (carries.attempt (execAll carries body (h.imp_left False.elim))) fun _ => carries.pure _
  | run body => exact carries.bind (execAll carries body h) fun _ => carries.pure _
  | note text => exact carries.pure _

theorem execAll (carries : Carries @P) (steps : List Step)
    (h : Step.EmitsAll steps ∨ (∀ target, P (begin target)) ∧ P finish) : P (Step.execAll steps) := by
  cases steps with
  | nil => exact carries.pure ()
  | cons step steps =>
    refine carries.bind (exec carries step (h.imp_left And.left)) fun _ => ?_
    exact execAll carries steps (h.imp_left And.right)

end

end Carries

end Machine

end Polyadic.Session
