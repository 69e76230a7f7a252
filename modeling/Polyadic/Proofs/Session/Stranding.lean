import Polyadic.Proofs.Session.Consistency

/-!
# Stranded blocks

A block that was entered is left again, however its body ends, with one exception: if the body succeeds
and leaves a block pending whose closing line the sink refuses, the region of the body is not left.
`Strands` says of a run that this happens in it. The main statement `entered_block_iff` is that the exception
is exact: the number of entered blocks is the same before and behind a block unless the run strands one,
and one more then; and a pass can no longer be ended at the top level once it has stranded a block.

The sink that refused the line is full, so nothing is written any more and no block entered. That is why
a pass strands one block at most (`Stuck`).
-/

namespace Polyadic.Session

/-- The body of a block succeeds, and the block that it leaves pending cannot be closed. -/
def Unclosable {α : Type} (body : Machine.Action α) (m : Machine) : Prop :=
  ∃ a m', body m = .ok a m' ∧ ∃ e s, Action.closeIfPending m'.session = .error e s

/-- Somewhere in a run of the steps the body of a block leaves a block pending that cannot be closed. -/
inductive Strands : List Step → Machine → Prop where
  | here {header suffix body steps m block m'} :
    Machine.enterBlock header suffix m = .ok block m' →
    Unclosable (Step.execAll body) m' →
    Strands (.block header suffix body :: steps) m
  | later {step steps m answer m'} :
    step.exec m = .ok answer m' →
    Strands steps m' →
    Strands (step :: steps) m
  | inBlock {header suffix body steps m block m'} :
    Machine.enterBlock header suffix m = .ok block m' →
    Strands body m' →
    Strands (.block header suffix body :: steps) m
  | inScope {scope body steps m m'} :
    Machine.onSession (Action.pushScope scope) m = .ok () m' →
    Strands body m' →
    Strands (.scoped scope body :: steps) m
  | inAttempt {body steps m} :
    Strands body m →
    Strands (.attempt body :: steps) m
  | inRun {body steps m} :
    Strands body m →
    Strands (.run body :: steps) m

/-- Some step strands a block when steps are run one after the other whether or not they fail. -/
def StrandsAmong : List Step → Machine → Prop
  | [], _ => False
  | step :: steps, m => Strands [step] m ∨ StrandsAmong steps (Machine.outcome step.exec m).2

lemma unclosable_iff {α : Type} {body : Machine.Action α} {m m' : Machine} {a : α}
    (hb : body m = .ok a m') :
    Unclosable body m ↔ ∃ e s, Action.closeIfPending m'.session = .error e s := by
  constructor
  · intro h
    obtain ⟨_, _, hb', hc⟩ := h
    cases hb.symm.trans hb'
    exact hc
  · exact fun hc => ⟨a, m', hb, hc⟩

lemma not_unclosable_of_error {α : Type} {body : Machine.Action α} {m m' : Machine} {e : Error}
    (hb : body m = .error e m') : ¬ Unclosable body m := by
  intro h
  obtain ⟨_, _, hb', _⟩ := h
  cases hb.symm.trans hb'

lemma not_strands_nil {m : Machine} : ¬ Strands [] m :=
  nofun

/-- A run strands a block in its first step or behind it. -/
lemma strands_cons {step : Step} {steps : List Step} {m : Machine} :
    Strands (step :: steps) m ↔
      Strands [step] m ∨ ∃ answer m', step.exec m = .ok answer m' ∧ Strands steps m' := by
  constructor
  · intro h
    cases h with
    | here he hu => exact .inl (.here he hu)
    | later hs h => exact .inr ⟨_, _, hs, h⟩
    | inBlock he h => exact .inl (.inBlock he h)
    | inScope hs h => exact .inl (.inScope hs h)
    | inAttempt h => exact .inl (.inAttempt h)
    | inRun h => exact .inl (.inRun h)
  · rintro (h | ⟨answer, m', hs, h⟩)
    · cases h with
      | here he hu => exact .here he hu
      | later hs h => exact absurd h not_strands_nil
      | inBlock he h => exact .inBlock he h
      | inScope hs h => exact .inScope hs h
      | inAttempt h => exact .inAttempt h
      | inRun h => exact .inRun h
    · exact .later hs h

/-- The sink is full while one block more than `k` is entered and none is pending. -/
structure Stuck (k : Nat) (s : Session) : Prop extends Layered (k + 1) none s where
  full : s.IsFull

namespace Stuck

variable {k : Nat} {s s' : Session}

lemma settled {k' : Nat} (h : Stuck k s) (step : Settled (k' + 1) s s') : Stuck k' s' :=
  ⟨step.toLayered, step.full h.full⟩

lemma no_room (h : Stuck k s) : ¬ s.HasRoom :=
  fun room => room.not_full h.full

/-- Nothing that a program does changes a stuck session, up to the blocks that are left. -/
theorem runInvariant : RunInvariant Stuck (· + 1) (fun _ k => k) (fun _ => True) where
  -- What needs room in the sink fails, and the end of the pass fails in the block.
  begin := by
    intro k s sink h
    refine (Action.begin_yields s sink).mono ?_ ?_
    · intro _ s' ⟨_, _, idle, _⟩
      exact absurd (idle.symm.trans h.full.active) (by decide)
    · rintro e s' ⟨_, rfl, _⟩
      exact ⟨trivial, h⟩
  finish := by
    intro k s h
    refine (Action.finish_yields h.toLayered).mono ?_ ?_
    · intro _ s' ⟨hk, _⟩
      exact absurd hk (Nat.succ_ne_zero k)
    · rintro e s' (⟨rfl, _⟩ | ⟨rfl, _⟩ | ⟨hk, _⟩)
      · exact ⟨trivial, h⟩
      · exact ⟨trivial, h⟩
      · exact absurd hk (Nat.succ_ne_zero k)
  statement := fun template terminator h =>
    (Action.statement_yields h.toLayered template terminator).mono
      (fun _ _ settled => h.settled settled) (fun _ _ ⟨settled, _⟩ => ⟨trivial, h.settled settled⟩)
  openBlock := fun header suffix h =>
    (Action.openBlock_yields h.toLayered header suffix).mono
      (fun _ _ ⟨_, _, _, room⟩ => absurd room h.no_room)
      (fun _ _ ⟨settled, _⟩ => ⟨trivial, h.settled settled⟩)
  closeBlock := fun h =>
    (Action.closeBlock_yields h.toLayered).mono (fun _ _ settled => h.settled settled)
      (fun _ _ ⟨settled, _⟩ => ⟨trivial, h.settled settled⟩)
  enter := fun header suffix h =>
    (Action.openBlock_enter_yields h.toLayered header suffix).mono
      (fun _ _ ⟨_, room⟩ => absurd room h.no_room)
      (fun _ _ ⟨settled, _⟩ => ⟨trivial, h.settled settled⟩)
  complete := by
    intro k s block h
    refine (Action.complete_yields block h.toLayered).mono ?_ ?_
    · intro _ s' ⟨_, room, _⟩
      exact absurd room h.no_room
    · intro e s' ⟨_, left⟩
      obtain ⟨settled, _⟩ | ⟨_, hp, _⟩ := left
      · exact ⟨trivial, h.settled settled⟩
      · exact absurd rfl hp
  abandon := by
    intro k s block h
    refine (Action.abandon_yields block h.toLayered).mono ?_ (fun e s' fail => fail)
    intro _ s' ⟨steady, regions, writer⟩
    have depth : k + 2 ≤ s'.writer.depth := writer ▸ h.depth
    exact h.settled ⟨steady, regions, Nat.le_of_succ_le depth⟩
  pushScope _ h := ⟨⟨h.regions, h.depth⟩, h.full⟩
  popScope _ h := ⟨⟨h.regions, h.depth⟩, h.full⟩
  write := trivial
  alreadyActive := trivial
  placeholder _ := trivial

/-- A stuck session strands no further block, since it enters none. -/
theorem not_strands {steps : List Step} {m : Machine} (h : Stuck k m.session) :
    ¬ Strands steps m := by
  intro strands
  induction strands generalizing k with
  | @here header suffix _ _ m _ _ he _ =>
    have entered := (Action.openBlock_enter_yields h.toLayered header suffix).onSession.of_ok he
    exact h.no_room entered.2
  | later hs _ ih =>
    have next := (runInvariant.exec _ k _ h).of_ok hs
    exact ih next
  | @inBlock header suffix _ _ m _ _ he _ _ =>
    have entered := (Action.openBlock_enter_yields h.toLayered header suffix).onSession.of_ok he
    exact h.no_room entered.2
  | inScope hs _ ih =>
    cases hs
    exact ih ⟨⟨h.regions, h.depth⟩, h.full⟩
  | inAttempt _ ih => exact ih h
  | inRun _ ih => exact ih h

end Stuck

/-- A run from a session with `k` entered blocks has left so many, or has stranded one. -/
def Counted (strands : Prop) (bodies k : Nat) (s : Session) : Prop :=
  (¬ strands ∧ ∃ p, Sound bodies k p s) ∨ (strands ∧ Stuck k s)

namespace Counted

variable {bodies k : Nat} {p : Option Block} {m : Machine}

lemma congr {P Q : Prop} {act : Machine.Action α} (iff : P ↔ Q)
    (y : Yields act m (fun _ m' => Counted P bodies k m'.session)
      (fun _ m' => Counted P bodies k m'.session)) :
    Yields act m (fun _ m' => Counted Q bodies k m'.session)
      (fun _ m' => Counted Q bodies k m'.session) := by
  rwa [propext iff] at y

lemma rescoped {strands : Prop} {s : Session} (h : Counted strands bodies k s)
    (scopes : Template.Scopes) : Counted strands bodies k { s with scopes } := by
  obtain ⟨hn, p, sound⟩ | ⟨hs, stuck⟩ := h
  · exact .inl ⟨hn, p, sound.rescoped scopes⟩
  · exact .inr ⟨hs, ⟨stuck.regions, stuck.depth⟩, stuck.full⟩

/-- A step that strands nothing and keeps the invariant is counted. -/
lemma of_sound {strands : Prop} {act : Machine.Action α} (hn : ¬ strands)
    (y : Yields act m (fun _ m' => ∃ p, Sound bodies k p m'.session)
      (fun e m' => e.IsExpected ∧ ∃ p, Sound bodies k p m'.session)) :
    Yields act m (fun _ m' => Counted strands bodies k m'.session)
      (fun _ m' => Counted strands bodies k m'.session) :=
  y.mono (fun _ _ h => .inl ⟨hn, h⟩) (fun _ _ h => .inl ⟨hn, h.2⟩)

/-- A body that fails is left, and its block with it. -/
lemma abandon_yields {strands : Prop} {s : Session} (block : Block)
    (h : Counted strands (bodies + 1) (k + 1) s) :
    Yields (Action.abandon block) s (fun _ => Counted strands bodies k)
      (fun _ => Counted strands bodies k) := by
  obtain ⟨hn, p, sound⟩ | ⟨hs, stuck⟩ := h
  · obtain ⟨_, ⟨⟩, hk⟩ := sound.entered_pos
    exact (sound.abandon_yields hk block).mono (fun _ _ h => .inl ⟨hn, none, h⟩) (fun _ _ h => h)
  · exact (Stuck.runInvariant.abandon block stuck).mono (fun _ _ h => .inr ⟨hs, h⟩)
      (fun _ _ h => .inr ⟨hs, h.2⟩)

/-- A body that succeeds is left, and its block with it, unless what is pending in it cannot be closed. -/
lemma complete_yields {strands : Prop} {s : Session} (block : Block)
    (h : Counted strands (bodies + 1) (k + 1) s) :
    Yields (Action.complete block) s
      (fun _ => Counted (strands ∨ ∃ e s', Action.closeIfPending s = .error e s') bodies k)
      (fun _ => Counted (strands ∨ ∃ e s', Action.closeIfPending s = .error e s') bodies k) := by
  obtain ⟨hn, p, sound⟩ | ⟨hs, stuck⟩ := h
  · obtain ⟨_, ⟨⟩, hk⟩ := sound.entered_pos
    have active := (sound.inside (Nat.succ_pos bodies)).1
    have closable (closes : ∀ e s', Action.closeIfPending s ≠ .error e s') :
        ¬ (strands ∨ ∃ e s', Action.closeIfPending s = .error e s') := by
      rintro (h | ⟨e, s', h⟩)
      · exact hn h
      · exact closes e s' h
    refine (Action.complete_yields block sound.toLayered).mono ?_ ?_
    · intro _ s' completed
      obtain ⟨settled, _, closes⟩ := completed
      exact .inl ⟨closable closes, none, sound.leave settled hk⟩
    · intro e s' failed
      obtain ⟨refused, left⟩ := failed
      obtain ⟨settled, closes⟩ | ⟨settled, _, hc⟩ := left
      · exact .inl ⟨closable closes, none, sound.leave settled hk⟩
      · have full : s'.IsFull := by
          obtain ⟨_, full⟩ | ⟨_, idle⟩ := refused
          · exact full
          · exact absurd (idle.symm.trans (settled.active.trans active)) (by decide)
        exact .inr ⟨.inr ⟨e, s', hc⟩, settled.toLayered, full⟩
  · exact (Stuck.runInvariant.complete block stuck).mono
      (fun _ _ h => .inr ⟨.inl hs, h⟩) (fun _ _ h => .inr ⟨.inl hs, h.2⟩)

lemma inside {body : Machine.Action α} {strands : Prop} (block : Block)
    (hbody : Yields body m (fun _ m' => Counted strands (bodies + 1) (k + 1) m'.session)
      (fun _ m' => Counted strands (bodies + 1) (k + 1) m'.session)) :
    Yields (Machine.inside block body) m
      (fun _ m' => Counted (strands ∨ Unclosable body m) bodies k m'.session)
      (fun _ m' => Counted (strands ∨ Unclosable body m) bodies k m'.session) := by
  refine .around hbody.with_run ?_ ?_
  · intro a m' run
    obtain ⟨hb, counted⟩ := run
    exact Counted.congr (or_congr_right (unclosable_iff hb).symm)
      (counted.complete_yields block).onSession
  · intro e m' run
    obtain ⟨hb, counted⟩ := run
    exact Counted.congr (or_iff_left (not_unclosable_of_error hb)).symm
      (counted.abandon_yields block).onSession

lemma entered_iff {strands : Prop} {s : Session} (h : Counted strands bodies k s) :
    (s.regions.entered = k ↔ ¬ strands) ∧ (s.regions.entered = k + 1 ↔ strands) := by
  obtain ⟨hn, p, sound⟩ | ⟨hs, stuck⟩ := h
  · rw [sound.entered]
    simp [hn]
  · rw [stuck.entered]
    simp [hs]

/-- At the top level a pass can be ended, if there is one, unless a block was stranded. -/
lemma finish_iff {strands : Prop} (h : Counted strands bodies 0 m.session) :
    (Machine.outcome Machine.finish m).1 = .error (.imbalance .endingInside) ↔ strands := by
  unfold Machine.outcome
  obtain ⟨hn, p, sound⟩ | ⟨hs, stuck⟩ := h
  · have y := Yields.finish (Action.finish_yields sound.toLayered)
    refine iff_of_false ?_ hn
    cases hf : Machine.finish m with
    | ok sink m' => nofun
    | error e m' =>
      rintro ⟨⟩
      obtain ⟨_, ⟨⟩, _⟩ | ⟨_, _, hk, _⟩ | ⟨_, _, _, ⟨⟩⟩ := y.of_error hf
      exact hk rfl
  · have y := Yields.finish (Action.finish_yields stuck.toLayered)
    refine iff_of_true ?_ hs
    cases hf : Machine.finish m with
    | ok sink m' => cases (y.of_ok hf).1
    | error e m' =>
      obtain ⟨_, _, idle⟩ | ⟨_, rfl, _⟩ | ⟨⟨⟩, _⟩ := y.of_error hf
      · exact absurd (idle.symm.trans stuck.full.active) (by decide)
      · rfl

end Counted

/-- A block strands one when a block is stranded in its body, or the one that its body leaves pending
cannot be closed. -/
lemma strands_block {header suffix : String} {body : List Step} {m m' : Machine} {block : Block}
    (he : Machine.enterBlock header suffix m = .ok block m') :
    Strands [.block header suffix body] m ↔ Strands body m' ∨ Unclosable (Step.execAll body) m' := by
  constructor
  · intro h
    cases h with
    | here he' hu =>
      cases he.symm.trans he'
      exact .inr hu
    | later _ h => exact absurd h not_strands_nil
    | inBlock he' h =>
      cases he.symm.trans he'
      exact .inl h
  · intro h
    obtain h | h := h
    · exact .inBlock he h
    · exact .here he h

lemma not_strands_block {header suffix : String} {body : List Step} {m m' : Machine} {e : Error}
    (he : Machine.enterBlock header suffix m = .error e m') :
    ¬ Strands [.block header suffix body] m := by
  intro strands
  cases strands with
  | here he' _ => cases he.symm.trans he'
  | later _ h => exact not_strands_nil h
  | inBlock he' _ => cases he.symm.trans he'

lemma strands_scoped {scope : Template.Scope} {body : List Step} {m m' : Machine}
    (hs : Machine.onSession (Action.pushScope scope) m = .ok () m') :
    Strands [.scoped scope body] m ↔ Strands body m' := by
  constructor
  · intro h
    cases h with
    | later _ h => exact absurd h not_strands_nil
    | inScope hs' h =>
      cases hs.symm.trans hs'
      exact h
  · exact .inScope hs

lemma strands_attempt {body : List Step} {m : Machine} :
    Strands [.attempt body] m ↔ Strands body m := by
  constructor
  · intro h
    cases h with
    | later _ h => exact absurd h not_strands_nil
    | inAttempt h => exact h
  · exact .inAttempt

lemma strands_run {body : List Step} {m : Machine} : Strands [.run body] m ↔ Strands body m := by
  constructor
  · intro h
    cases h with
    | later _ h => exact absurd h not_strands_nil
    | inRun h => exact h
  · exact .inRun

/-- Nothing is pending behind the opening of a block, so there is nothing that could not be closed. -/
lemma not_unclosable_pure {α : Type} {a : α} {k : Nat} {m : Machine} (h : Layered k none m.session) :
    ¬ Unclosable (pure a) m := by
  intro unclosable
  obtain ⟨e, s, hc⟩ := (unclosable_iff rfl).mp unclosable
  exact ((Action.closeIfPending_yields h).of_error hc).2.2 rfl

namespace Sound

open Machine

variable {bodies k : Nat} {p : Option Block} {m : Machine}

mutual

/-- Every step leaves as many blocks entered as it has found, unless it strands one. -/
theorem exec_counted (step : Step) (bodies k : Nat) (p : Option Block) (m : Machine)
    (h : Sound bodies k p m.session) :
    Yields step.exec m (fun _ m' => Counted (Strands [step] m) bodies k m'.session)
      (fun _ m' => Counted (Strands [step] m) bodies k m'.session) := by
  cases step with
  | begin target =>
    refine Counted.of_sound ?_ (.bind (.begin (h.begin_yields _) ⟨nofun, p, h⟩
      ⟨nofun, p, h⟩) fun _ _ h => h)
    exact fun | .later _ h => not_strands_nil h
  | finish =>
    refine Counted.of_sound ?_ (.bind (.finish h.finish_yields) fun _ _ h => h)
    exact fun | .later _ h => not_strands_nil h
  | statement template terminator =>
    refine Counted.of_sound ?_ (.bind (h.statement_yields template terminator).onSession
      fun _ _ h => h)
    exact fun | .later _ h => not_strands_nil h
  | openBlock header suffix =>
    refine Counted.of_sound ?_ (.bind (h.openBlock_yields header suffix).onSession fun _ _ h => h)
    exact fun | .later _ h => not_strands_nil h
  | closeBlock =>
    refine Counted.of_sound ?_ (.bind h.closeBlock_yields.onSession fun _ _ h => h)
    exact fun | .later _ h => not_strands_nil h
  | emptyBlock header =>
    have stays : ¬ Strands [.emptyBlock header] m := fun | .later _ h => not_strands_nil h
    have entered : Yields (enterBlock header "") m
        (fun _ m' => Sound (bodies + 1) (k + 1) none m'.session)
        (fun _ m' => Counted (Strands [.emptyBlock header] m) bodies k m'.session) :=
      (h.enter_yields header "").onSession.mono (fun _ _ h => h)
        (fun _ _ h => .inl ⟨stays, none, h.2⟩)
    refine .bind entered fun block m₁ h₁ => ?_
    -- The body is empty, so it leaves nothing pending that could not be closed.
    have empty : Counted False (bodies + 1) (k + 1) m₁.session := .inl ⟨id, none, h₁⟩
    refine Counted.congr ?_ (Counted.inside block (.pure empty))
    simp only [false_or, stays, not_unclosable_pure h₁.toLayered]
  | resolve template =>
    have resolved : Yields (Action.resolve template) m.session
        (fun _ s => ∃ p, Sound bodies k p s) (fun e s => e.IsExpected ∧ ∃ p, Sound bodies k p s) := by
      refine (Yields.resolve fun cause => ⟨.placeholder cause, p, h⟩).mono ?_ (fun _ _ h => h)
      rintro _ s rfl
      exact ⟨p, h⟩
    refine Counted.of_sound ?_ (.bind resolved.onSession fun _ _ h => h)
    exact fun | .later _ h => not_strands_nil h
  | block header suffix body =>
    have entered := (h.enter_yields header suffix).onSession
    refine .bind (entered.with_run.mono (fun _ _ h => h) ?_) ?_
    · intro e m' run
      obtain ⟨he, _, sound⟩ := run
      exact .inl ⟨not_strands_block he, none, sound⟩
    · intro block m₁ run
      obtain ⟨he, sound⟩ := run
      have inner := execAll_counted body (bodies + 1) (k + 1) none m₁ sound
      have counted := Counted.congr (strands_block he).symm (Counted.inside block inner)
      exact .bind counted fun _ _ h => h
  | «scoped» scope body =>
    have hs : Machine.onSession (Action.pushScope scope) m = .ok () _ := onSession_of_ok rfl
    have inner := Counted.congr (strands_scoped hs).symm
      (execAll_counted body bodies k p _ (h.rescoped _))
    exact .bind (.inScope inner (fun _ _ h => h.rescoped _) (fun _ _ h => h.rescoped _))
      fun _ _ h => h
  | attempt body =>
    have inner := Counted.congr strands_attempt.symm (execAll_counted body bodies k p m h)
    exact .bind (.attempt inner fun _ _ h => h) fun _ _ h => h
  | run body =>
    have inner := Counted.congr strands_run.symm (execAll_counted body bodies k p m h)
    exact .bind inner fun _ _ h => h
  | note text => exact .inl ⟨fun | .later _ h => not_strands_nil h, p, h⟩

theorem execAll_counted (steps : List Step) (bodies k : Nat) (p : Option Block) (m : Machine)
    (h : Sound bodies k p m.session) :
    Yields (Step.execAll steps) m (fun _ m' => Counted (Strands steps m) bodies k m'.session)
      (fun _ m' => Counted (Strands steps m) bodies k m'.session) := by
  cases steps with
  | nil => exact .inl ⟨not_strands_nil, p, h⟩
  | cons step steps =>
    refine Counted.congr strands_cons.symm ?_
    refine .bind ((exec_counted step bodies k p m h).with_run.mono (fun _ _ h => h) ?_) ?_
    · intro e m' ⟨hs, counted⟩
      simpa only [hs, reduceCtorEq, false_and, exists_false, or_false] using counted
    intro answer m' ⟨hs, counted⟩
    obtain ⟨hn, p', sound⟩ | ⟨strands, stuck⟩ := counted
    · refine Counted.congr ⟨fun strands => .inr ⟨answer, m', hs, strands⟩, ?_⟩
        (execAll_counted steps bodies k p' m' sound)
      rintro (strands | ⟨_, _, hs', strands⟩)
      · exact absurd strands hn
      · cases hs.symm.trans hs'
        exact strands
    · -- A stuck session stays stuck, whatever the other steps do.
      exact (Stuck.runInvariant.execAll steps k m' stuck).mono
        (fun _ _ h => .inr ⟨.inl strands, h⟩) (fun _ _ h => .inr ⟨.inl strands, h.2⟩)

end

/-- Steps that are run whether or not they fail leave as many blocks entered as they have found, unless
one of them strands a block. -/
lemma watch_counted (steps : List Step) (h : Sound bodies k p m.session) :
    Counted (StrandsAmong steps m) bodies k (m.watch steps).2.session := by
  induction steps generalizing p m with
  | nil => exact .inl ⟨id, p, h⟩
  | cons step steps ih =>
    have first := (h.exec_counted step bodies k p m).outcome
    show Counted (StrandsAmong (step :: steps) m) bodies k
      ((Machine.outcome step.exec m).2.watch steps).2.session
    obtain ⟨hn, p', sound⟩ | ⟨strands, stuck⟩ := first
    · obtain ⟨hn', sound'⟩ | ⟨strands, stuck⟩ := ih sound
      · exact .inl ⟨not_or.mpr ⟨hn, hn'⟩, sound'⟩
      · exact .inr ⟨.inr strands, stuck⟩
    · exact .inr ⟨.inl strands, Stuck.runInvariant.watch steps stuck⟩

end Sound

/-- Behind a block as many blocks are entered as before it, unless its run strands one, and one more then.
A pass can be ended at the top level, whatever the steps before it have failed with, unless one of them
has stranded a block. -/
theorem entered_block_iff {options : Options} {disk : Disk} {bodies : Nat} {state : Machine}
    (h : Reachable options disk bodies state) (header suffix : String) (body : List Step)
    (steps : List Step) :
    ((Machine.outcome (Step.exec (.block header suffix body)) state).2.session.regions.entered =
        state.session.regions.entered ↔ ¬ Strands [.block header suffix body] state) ∧
      ((Machine.outcome (Step.exec (.block header suffix body)) state).2.session.regions.entered =
        state.session.regions.entered + 1 ↔ Strands [.block header suffix body] state) ∧
      ((Machine.outcome Machine.finish ((Machine.ofOptions options disk).watch steps).2).1 =
        .error (.imbalance .endingInside) ↔ StrandsAmong steps (.ofOptions options disk)) := by
  obtain ⟨k, p, sound⟩ := Sound.runInvariant.reachable (fun options => ⟨0, none, .fresh options⟩) h
  have behind := (sound.exec_counted (.block header suffix body) bodies k p state).outcome.entered_iff
  rw [sound.entered]
  have fresh : Sound 0 0 none (Machine.ofOptions options disk).session := .fresh options
  exact ⟨behind.1, behind.2, (fresh.watch_counted steps).finish_iff⟩

/-- A sink that takes the openings of two nested blocks and refuses the closing brace of the inner one. -/
def nineBytes : Target :=
  .memory { capacity := some 9 }

/-- The inner block is stranded. -/
theorem strands_nineBytes :
    let state := ((Machine.ofOptions {}).watch [.begin nineBytes]).2
    Reachable {} .empty 0 state ∧ Strands [.block "A" "" [.openBlock "B" ""]] state := by
  intro state
  have reachable : Reachable {} .empty 0 state := ⟨[.begin nineBytes], [], .here⟩
  exact ⟨reachable, (entered_block_iff reachable "A" "" [.openBlock "B" ""] []).2.1.mp (by cbv)⟩

/-- The outer block stays entered, and the pass cannot be ended. -/
theorem entered_ne_nineBytes :
    let before := ((Machine.ofOptions {}).watch [.begin nineBytes]).2
    let behind := (Machine.outcome (Step.exec (.block "A" "" [.openBlock "B" ""])) before).2
    before.session.regions.entered = 0 ∧ behind.session.regions.entered = 1 ∧
      (Machine.outcome Machine.finish behind).1 = .error (.imbalance .endingInside) := by
  cbv

end Polyadic.Session
