import Polyadic.Proofs.Session.Outcome
import Polyadic.Session.Trace

/-!
# Runs of programs

A property of sessions that every operation keeps is kept by every step and every program, whether they
succeed or fail: `RunInvariant.exec` and `RunInvariant.execAll`, by induction on the steps. The property
may depend on what is around a step, which is what the index of the family is for: `inner` is the index
inside the body of a block and `within` the one inside the body of a scope.

`Passes` says which states a run goes through, and in the bodies of how many blocks; `Reachable` does so
for all runs from a fresh session. `RunInvariant.passes` carries an invariant to each of these states.
-/

namespace Polyadic.Session

/-- What an operation yields in any case holds of the machine that it leaves behind. -/
lemma Yields.outcome {act : Machine.Action α} {m : Machine} {post : Machine → Prop}
    (y : Yields act m (fun _ => post) (fun _ => post)) : post (Machine.outcome act m).2 := by
  unfold Machine.outcome
  cases h : act m with
  | ok a m' => exact y.of_ok h
  | error e m' => exact y.of_error h

lemma Machine.outcome_of_ok {act : Machine.Action α} {m m' : Machine} {a : α} (h : act m = .ok a m') :
    Machine.outcome act m = (.ok a, m') := by
  unfold Machine.outcome
  rw [h]

lemma Machine.outcome_of_error {act : Machine.Action α} {m m' : Machine} {e : Error}
    (h : act m = .error e m') : Machine.outcome act m = (.error e, m') := by
  unfold Machine.outcome
  rw [h]

/-- What succeeds leaves behind the machine of its outcome. -/
lemma Machine.eq_ok_of_outcome {act : Machine.Action α} {m : Machine} {a : α}
    (h : (Machine.outcome act m).1 = .ok a) : act m = .ok a (Machine.outcome act m).2 := by
  unfold Machine.outcome at h ⊢
  cases hs : act m with
  | ok a' m' =>
    rw [hs] at h
    cases h
    rfl
  | error e m' =>
    rw [hs] at h
    cases h

lemma Machine.eq_error_of_outcome {act : Machine.Action α} {m : Machine} {e : Error}
    (h : (Machine.outcome act m).1 = .error e) : act m = .error e (Machine.outcome act m).2 := by
  unfold Machine.outcome at h ⊢
  cases hs : act m with
  | ok a m' =>
    rw [hs] at h
    cases h
  | error e' m' =>
    rw [hs] at h
    cases h
    rfl

variable {ι : Type}

/-- A family of properties of sessions that every operation of a program keeps; `E` holds of the errors. -/
structure RunInvariant (I : ι → Session → Prop) (inner : ι → ι) (within : Template.Scope → ι → ι)
    (E : Error → Prop) : Prop where
  begin : ∀ {i s} sink, I i s →
    Yields (Action.begin sink) s (fun _ => I i) (fun e s' => E e ∧ I i s')
  finish : ∀ {i s}, I i s → Yields Action.finish s (fun _ => I i) (fun e s' => E e ∧ I i s')
  statement : ∀ {i s} template terminator, I i s →
    Yields (Action.statement template terminator) s (fun _ => I i) (fun e s' => E e ∧ I i s')
  openBlock : ∀ {i s} header suffix, I i s →
    Yields (Action.openBlock header suffix) s (fun _ => I i) (fun e s' => E e ∧ I i s')
  closeBlock : ∀ {i s}, I i s →
    Yields Action.closeBlock s (fun _ => I i) (fun e s' => E e ∧ I i s')
  enter : ∀ {i s} header suffix, I i s →
    Yields (do Action.openBlock header suffix; Action.enter) s (fun _ => I (inner i))
      (fun e s' => E e ∧ I i s')
  complete : ∀ {i s} block, I (inner i) s →
    Yields (Action.complete block) s (fun _ => I i) (fun e s' => E e ∧ I i s')
  abandon : ∀ {i s} block, I (inner i) s →
    Yields (Action.abandon block) s (fun _ => I i) (fun e s' => E e ∧ I i s')
  pushScope : ∀ {i s} scope, I i s → I (within scope i) { s with scopes := scope :: s.scopes }
  popScope : ∀ {i s} scope, I (within scope i) s → I i { s with scopes := s.scopes.tail }
  write : E .write
  alreadyActive : E .alreadyActive
  placeholder : ∀ cause, E (.placeholder cause)

namespace RunInvariant

open Machine

variable {I : ι → Session → Prop} {inner : ι → ι} {within : Template.Scope → ι → ι}
  {E : Error → Prop} {i : ι} {m : Machine}

/-- The body of a block, with the way out of it, keeps the invariant. -/
lemma inside (inv : RunInvariant I inner within E) {α : Type} {body : Machine.Action α}
    (block : Block)
    (hbody : Yields body m (fun _ m' => I (inner i) m'.session)
      (fun e m' => E e ∧ I (inner i) m'.session)) :
    Yields (Machine.inside block body) m (fun _ m' => I i m'.session)
      (fun e m' => E e ∧ I i m'.session) := by
  refine .around hbody (fun _ m' h => ?_) (fun e m' h => ?_)
  · exact (inv.complete block h).onSession
  · refine ((inv.abandon block h.2).onSession).mono (fun _ m'' h' => ?_) (fun _ m'' h' => h')
    exact ⟨h.1, h'⟩

mutual

/-- Every step keeps an invariant of the operations. -/
theorem exec (inv : RunInvariant I inner within E) (step : Step) (i : ι) (m : Machine)
    (h : I i m.session) :
    Yields step.exec m (fun _ m' => I i m'.session) (fun e m' => E e ∧ I i m'.session) := by
  cases step with
  | begin target =>
    refine .bind (.begin (inv.begin _ h) ⟨inv.alreadyActive, h⟩ ⟨inv.write, h⟩) ?_
    exact fun _ _ h' => h'
  | finish => exact .bind (.finish (inv.finish h)) fun _ _ h' => h'
  | statement template terminator =>
    exact .bind (inv.statement template terminator h).onSession fun _ _ h' => h'
  | openBlock header suffix =>
    exact .bind (inv.openBlock header suffix h).onSession fun _ _ h' => h'
  | closeBlock => exact .bind (inv.closeBlock h).onSession fun _ _ h' => h'
  | emptyBlock header =>
    refine .bind (inv.enter header "" h).onSession fun block m₁ h₁ => ?_
    exact inv.inside block (.pure h₁)
  | resolve template =>
    have resolved : Yields (Action.resolve template) m.session (fun _ s => s = m.session)
        (fun e s => E e ∧ I i s) := .resolve fun cause => ⟨inv.placeholder cause, h⟩
    refine .bind resolved.onSession fun _ m' h' => .pure ?_
    rw [h']
    exact h
  | block header suffix body =>
    refine .bind (inv.enter header suffix h).onSession fun block m₁ h₁ => ?_
    refine .bind (inv.inside block (execAll inv body (inner i) m₁ h₁)) fun _ m₂ h₂ => ?_
    exact h₂
  | «scoped» scope body =>
    have inner := execAll inv body (within scope i) (m.rescoped _) (inv.pushScope scope h)
    exact .bind (.inScope inner (fun _ _ h' => inv.popScope scope h')
      (fun _ _ h' => ⟨h'.1, inv.popScope scope h'.2⟩)) fun _ _ h' => h'
  | attempt body =>
    exact .bind (.attempt (execAll inv body i m h) fun _ _ h' => h'.2) fun _ _ h' => h'
  | run body => exact .bind (execAll inv body i m h) fun _ _ h' => h'
  | note text => exact h

/-- Every program keeps an invariant of the operations. -/
theorem execAll (inv : RunInvariant I inner within E) (steps : List Step) (i : ι) (m : Machine)
    (h : I i m.session) :
    Yields (Step.execAll steps) m (fun _ m' => I i m'.session)
      (fun e m' => E e ∧ I i m'.session) := by
  cases steps with
  | nil => exact h
  | cons step steps =>
    exact .bind (exec inv step i m h) fun _ m' h' => execAll inv steps i m' h'

end

/-- Steps that are run whether or not they fail keep an invariant. -/
theorem watch (inv : RunInvariant I inner within E) (steps : List Step) (h : I i m.session) :
    I i (m.watch steps).2.session := by
  induction steps generalizing m with
  | nil => exact h
  | cons step steps ih =>
    apply ih
    exact ((inv.exec step i m h).mono (fun _ _ h => h) (fun _ _ h => h.2)).outcome

end RunInvariant

/-- A run of the steps from a machine passes through a state, inside the bodies of so many blocks. -/
inductive Passes : List Step → Machine → Nat → Machine → Prop where
  /-- The state before the first step. -/
  | here {steps m} : Passes steps m 0 m
  /-- A state behind a step that succeeded. -/
  | later {step steps m answer m' bodies state} :
    step.exec m = .ok answer m' →
    Passes steps m' bodies state →
    Passes (step :: steps) m bodies state
  /-- The state after a step that failed. -/
  | failed {step steps m e m'} :
    step.exec m = .error e m' →
    Passes (step :: steps) m 0 m'
  | inBlock {header suffix body steps m block m' bodies state} :
    Machine.enterBlock header suffix m = .ok block m' →
    Passes body m' bodies state →
    Passes (.block header suffix body :: steps) m (bodies + 1) state
  | inEmptyBlock {header steps m block m'} :
    Machine.enterBlock header "" m = .ok block m' →
    Passes (.emptyBlock header :: steps) m 1 m'
  | inScope {scope body steps m m' bodies state} :
    Machine.onSession (Action.pushScope scope) m = .ok () m' →
    Passes body m' bodies state →
    Passes (.scoped scope body :: steps) m bodies state
  | inAttempt {body steps m bodies state} :
    Passes body m bodies state →
    Passes (.attempt body :: steps) m bodies state
  | inRun {body steps m bodies state} :
    Passes body m bodies state →
    Passes (.run body :: steps) m bodies state

/-- A run that succeeds passes through its last state. -/
lemma Passes.of_ok {steps : List Step} {m m' : Machine} (h : Step.execAll steps m = .ok () m') :
    Passes steps m 0 m' := by
  induction steps generalizing m with
  | nil =>
    cases h
    exact .here
  | cons step steps ih =>
    cases done : step.exec m with
    | ok answer m₁ =>
      rw [Step.execAll, bind_of_ok done] at h
      exact .later done (ih h)
    | error e m₁ =>
      rw [Step.execAll, bind_of_error done] at h
      cases h

/-- A fresh session comes to a state, inside the bodies of so many blocks, when steps are run one after
the other whether or not they fail. -/
def Reachable (options : Options) (disk : Disk) (bodies : Nat) (state : Machine) : Prop :=
  ∃ earlier steps, Passes steps ((Machine.ofOptions options disk).watch earlier).2 bodies state

namespace RunInvariant

variable {I : Nat → Session → Prop} {E : Error → Prop}

/-- An invariant indexed by the blocks around a step holds in every state that a run passes through. -/
theorem passes (inv : RunInvariant I (· + 1) (fun _ i => i) E) {steps : List Step} {m state : Machine}
    {i bodies : Nat} (p : Passes steps m bodies state) (h : I i m.session) :
    I (i + bodies) state.session := by
  induction p generalizing i with
  | here => exact h
  | later hs _ ih =>
    have next := (inv.exec _ i _ h).of_ok hs
    exact ih next
  | failed hs => exact ((inv.exec _ i _ h).of_error hs).2
  | @inBlock header suffix body steps m block m' bodies state hb _ ih =>
    have entered := (inv.enter header suffix h).onSession.of_ok hb
    have inside := ih entered
    rwa [Nat.add_assoc, Nat.add_comm 1] at inside
  | @inEmptyBlock header steps m block m' hb =>
    have entered := (inv.enter header "" h).onSession.of_ok hb
    exact entered
  | @inScope scope body steps m m' bodies state hs _ ih =>
    cases hs
    exact ih (inv.pushScope scope h)
  | inAttempt _ ih => exact ih h
  | inRun _ ih => exact ih h

/-- An invariant that holds of fresh sessions holds in every reachable state. -/
theorem reachable (inv : RunInvariant I (· + 1) (fun _ i => i) E)
    (fresh : ∀ options, I 0 (.ofOptions options)) {options : Options} {disk : Disk} {bodies : Nat}
    {state : Machine} (h : Reachable options disk bodies state) : I bodies state.session := by
  obtain ⟨earlier, steps, p⟩ := h
  have kept := inv.passes p (inv.watch earlier (fresh options))
  rwa [Nat.zero_add] at kept

end RunInvariant

end Polyadic.Session
