import Polyadic.Proofs.Session.Regions
import Polyadic.Proofs.Session.Run

/-!
# Consistency of sessions

In every state that a program comes to, whatever failed before and wherever it was caught, regions, depth
and sink agree (`Consistent`). The invariant behind it, `Sound`, is `Layered` together with what the sink
has to do with it: without a sink there is no block, and in the body of a block there is a sink. It is kept
by every operation (`Sound.runInvariant`). The main statement is `reachable_consistent`, which also names
the only imbalances that are ever met.
-/

namespace Polyadic.Session

/-- Regions, depth and sink of a session agree, inside the bodies of so many blocks. -/
structure Consistent (bodies : Nat) (s : Session) : Prop where
  /-- Only the current region has a pending block. -/
  enclosing : ∀ pending ∈ s.regions.enclosing, pending = none
  /-- Every block that is entered or pending has its level of depth. -/
  depth : s.regions.entered + (if s.regions.pending.isSome then 1 else 0) ≤ s.writer.depth
  /-- Without a pass there is no block. -/
  idle : s.isActive = false → s.regions.entered = 0 ∧ s.regions.pending = none
  /-- The pass goes on in the body of a block, and the block stays entered. -/
  inside : 0 < bodies → s.isActive = true ∧ bodies ≤ s.regions.entered

/-- The invariant of sessions inside the bodies of so many blocks, of which `k` blocks are entered and `p`
is pending. -/
structure Sound (bodies k : Nat) (p : Option Block) (s : Session) : Prop extends Layered k p s where
  idle : s.isActive = false → k = 0 ∧ p = none
  inside : 0 < bodies → s.isActive = true ∧ bodies ≤ k

namespace Sound

variable {bodies k : Nat} {p : Option Block} {s s' : Session}

lemma consistent (h : Sound bodies k p s) : Consistent bodies s where
  enclosing := by
    intro pending hp
    rw [h.regions] at hp
    exact List.eq_of_mem_replicate hp
  depth := by
    have hdepth := h.depth
    rw [h.entered, h.pending]
    cases p with
    | none => exact hdepth
    | some block => exact hdepth
  idle := by
    rw [h.entered, h.pending]
    exact h.idle
  inside := by
    rw [h.entered]
    exact h.inside

lemma settled (h : Sound bodies k p s) (step : Settled k s s') : Sound bodies k none s' where
  toLayered := step.toLayered
  idle hidle := ⟨(h.idle (step.active ▸ hidle)).1, rfl⟩
  inside hbodies := ⟨step.active.trans (h.inside hbodies).1, (h.inside hbodies).2⟩

/-- Entering a block keeps the invariant in its body. -/
lemma enter (h : Sound bodies k p s) (step : Settled (k + 1) s s') (room : s.HasRoom) :
    Sound (bodies + 1) (k + 1) none s' where
  toLayered := step.toLayered
  idle hidle := absurd (hidle.symm.trans (step.active.trans room.active)) (by decide)
  inside _ := by
    refine ⟨step.active.trans room.active, Nat.succ_le_succ ?_⟩
    cases bodies with
    | zero => exact Nat.zero_le k
    | succ n => exact (h.inside (Nat.succ_pos n)).2

lemma entered_pos (h : Sound (bodies + 1) k p s) : ∃ k', k = k' + 1 ∧ bodies ≤ k' := by
  obtain ⟨_, hk⟩ := h.inside (Nat.succ_pos bodies)
  cases k with
  | zero => exact absurd hk (by simp)
  | succ k => exact ⟨k, rfl, Nat.le_of_succ_le_succ hk⟩

/-- Behind the body of a block the invariant holds with any block left that is not needed around it. -/
lemma leave {k' : Nat} (h : Sound (bodies + 1) k p s) (step : Settled k' s s') (hk : bodies ≤ k') :
    Sound bodies k' none s' where
  toLayered := step.toLayered
  idle hidle := absurd (hidle.symm.trans (step.active.trans (h.inside (Nat.succ_pos bodies)).1))
    (by decide)
  inside _ := ⟨step.active.trans (h.inside (Nat.succ_pos bodies)).1, hk⟩

lemma bodies_eq_zero (h : Sound bodies 0 p s) : bodies = 0 := by
  cases bodies with
  | zero => rfl
  | succ n => exact absurd (h.inside (Nat.succ_pos n)).2 (by simp)

lemma top (layered : Layered 0 none s) : Sound 0 0 none s where
  toLayered := layered
  idle _ := ⟨rfl, rfl⟩
  inside hbodies := absurd hbodies (Nat.lt_irrefl 0)

lemma fresh (options : Options) : Sound 0 0 none (ofOptions options) :=
  top ⟨rfl, Nat.le_refl 0⟩

lemma rescoped (h : Sound bodies k p s) (scopes : Template.Scopes) :
    Sound bodies k p { s with scopes } where
  regions := h.regions
  depth := h.depth
  idle := h.idle
  inside := h.inside

end Sound

/-! The operations keep the invariant with the number of entered blocks, except at a block. -/

namespace Sound

variable {bodies k : Nat} {p : Option Block} {s : Session}

lemma begin_yields (h : Sound bodies k p s) (sink : Sink) :
    Yields (Action.begin sink) s (fun _ s' => ∃ p', Sound bodies k p' s')
      (fun e s' => e.IsExpected ∧ ∃ p', Sound bodies k p' s') := by
  refine (Action.begin_yields s sink).mono ?_ ?_
  · intro _ s' ⟨layered, _, hidle, _⟩
    obtain ⟨rfl, rfl⟩ := h.idle hidle
    obtain rfl := h.bodies_eq_zero
    exact ⟨none, top layered⟩
  · rintro e s' ⟨rfl, rfl, _⟩
    exact ⟨nofun, p, h⟩

lemma finish_yields (h : Sound bodies k p s) :
    Yields Action.finish s (fun _ s' => ∃ p', Sound bodies k p' s')
      (fun e s' => e.IsExpected ∧ ∃ p', Sound bodies k p' s') := by
  refine (Action.finish_yields h.toLayered).mono ?_ ?_
  · rintro _ s' ⟨rfl, layered, _, _⟩
    obtain rfl := h.bodies_eq_zero
    exact ⟨none, top layered⟩
  · rintro e s' (⟨rfl, rfl, _⟩ | ⟨rfl, rfl, _⟩ | ⟨rfl, layered, _, rfl⟩)
    · exact ⟨nofun, p, h⟩
    · refine ⟨?_, p, h⟩
      rintro cause ⟨⟩
      exact .inr rfl
    · obtain rfl := h.bodies_eq_zero
      exact ⟨nofun, none, top layered⟩

lemma statement_yields (h : Sound bodies k p s) (template terminator : String) :
    Yields (Action.statement template terminator) s (fun _ s' => ∃ p', Sound bodies k p' s')
      (fun e s' => e.IsExpected ∧ ∃ p', Sound bodies k p' s') :=
  (Action.statement_yields h.toLayered template terminator).mono
    (fun _ _ settled => ⟨none, h.settled settled⟩)
    (fun _ _ ⟨settled, expected⟩ => ⟨expected, none, h.settled settled⟩)

lemma openBlock_yields (h : Sound bodies k p s) (header suffix : String) :
    Yields (Action.openBlock header suffix) s (fun _ s' => ∃ p', Sound bodies k p' s')
      (fun e s' => e.IsExpected ∧ ∃ p', Sound bodies k p' s') := by
  refine (Action.openBlock_yields h.toLayered header suffix).mono ?_ ?_
  · intro _ s' ⟨block, layered, steady, room⟩
    have active := steady.active.trans room.active
    refine ⟨some block, layered, fun hidle => ?_, fun hbodies => ⟨active, (h.inside hbodies).2⟩⟩
    exact absurd (hidle.symm.trans active) (by decide)
  · exact fun e s' ⟨settled, expected⟩ => ⟨expected, none, h.settled settled⟩

lemma closeBlock_yields (h : Sound bodies k p s) :
    Yields Action.closeBlock s (fun _ s' => ∃ p', Sound bodies k p' s')
      (fun e s' => e.IsExpected ∧ ∃ p', Sound bodies k p' s') :=
  (Action.closeBlock_yields h.toLayered).mono
    (fun _ _ settled => ⟨none, h.settled settled⟩)
    (fun _ _ ⟨settled, expected⟩ => ⟨expected, none, h.settled settled⟩)

lemma enter_yields (h : Sound bodies k p s) (header suffix : String) :
    Yields (do Action.openBlock header suffix; Action.enter) s
      (fun _ s' => Sound (bodies + 1) (k + 1) none s')
      (fun e s' => e.IsExpected ∧ Sound bodies k none s') :=
  (Action.openBlock_enter_yields h.toLayered header suffix).mono
    (fun _ _ ⟨settled, room⟩ => h.enter settled room)
    (fun _ _ ⟨settled, expected⟩ => ⟨expected, h.settled settled⟩)

lemma abandon_yields {fail : Error → Session → Prop} (h : Sound (bodies + 1) (k + 1) p s)
    (hk : bodies ≤ k) (block : Block) :
    Yields (Action.abandon block) s (fun _ s' => Sound bodies k none s') fail := by
  refine (Action.abandon_yields block h.toLayered).mono ?_ (fun e s' fail => fail)
  intro _ s' ⟨steady, regions, writer⟩
  have depth : k + 1 ≤ s'.writer.depth := by
    have := h.depth
    rw [writer]
    omega
  exact h.leave ⟨steady, regions, Nat.le_of_succ_le depth⟩ hk

/-- Every operation keeps the invariant, and fails with no imbalance but the expected ones. -/
theorem runInvariant :
    RunInvariant (fun bodies s => ∃ k p, Sound bodies k p s) (· + 1) (fun _ bodies => bodies)
      Error.IsExpected where
  begin := fun sink ⟨k, _, h⟩ =>
    (h.begin_yields sink).mono (fun _ _ h => ⟨k, h⟩) (fun _ _ h => ⟨h.1, k, h.2⟩)
  finish := fun ⟨k, _, h⟩ =>
    h.finish_yields.mono (fun _ _ h => ⟨k, h⟩) (fun _ _ h => ⟨h.1, k, h.2⟩)
  statement := fun template terminator ⟨k, _, h⟩ =>
    (h.statement_yields template terminator).mono (fun _ _ h => ⟨k, h⟩)
      (fun _ _ h => ⟨h.1, k, h.2⟩)
  openBlock := fun header suffix ⟨k, _, h⟩ =>
    (h.openBlock_yields header suffix).mono (fun _ _ h => ⟨k, h⟩) (fun _ _ h => ⟨h.1, k, h.2⟩)
  closeBlock := fun ⟨k, _, h⟩ =>
    h.closeBlock_yields.mono (fun _ _ h => ⟨k, h⟩) (fun _ _ h => ⟨h.1, k, h.2⟩)
  enter := fun header suffix ⟨k, _, h⟩ =>
    (h.enter_yields header suffix).mono (fun _ _ h => ⟨k + 1, none, h⟩)
      (fun _ _ h => ⟨h.1, k, none, h.2⟩)
  complete := by
    intro bodies s block ⟨k, p, h⟩
    obtain ⟨k, rfl, hk⟩ := h.entered_pos
    -- If the region is not left, one block more stays entered, which does no harm.
    refine (Action.complete_yields block h.toLayered).mono ?_ ?_
    · intro _ s' ⟨settled, _⟩
      exact ⟨k, none, h.leave settled hk⟩
    · intro e s' ⟨refused, left⟩
      obtain ⟨settled, _⟩ | ⟨settled, _⟩ := left
      · exact ⟨refused.isExpected, k, none, h.leave settled hk⟩
      · exact ⟨refused.isExpected, k + 1, none, h.leave settled (Nat.le_succ_of_le hk)⟩
  abandon := by
    intro bodies s block ⟨k, p, h⟩
    obtain ⟨k, rfl, hk⟩ := h.entered_pos
    exact (h.abandon_yields hk block).mono (fun _ s' h' => ⟨k, none, h'⟩) (fun e s' fail => fail)
  pushScope scope := fun ⟨k, p, h⟩ => ⟨k, p, h.rescoped _⟩
  popScope scope := fun ⟨k, p, h⟩ => ⟨k, p, h.rescoped _⟩
  write := nofun
  alreadyActive := nofun
  placeholder := .placeholder

end Sound

/-- In every state that steps come to, in whatever order and whatever they fail with, regions, depth and
sink agree; the only imbalances met there are an explicit close without a pending block and the end of a
pass inside a block; and when a block becomes the pending one, none is pending. -/
theorem reachable_consistent {options : Options} {disk : Disk} {bodies : Nat} {state : Machine}
    (h : Reachable options disk bodies state) :
    Consistent bodies state.session ∧
      (∀ step cause state', Step.exec step state = .error (.imbalance cause) state' →
        cause = .nonePending ∨ cause = .endingInside) ∧
      (∀ template header s, Action.writeOpening template state.session = .ok header s →
        s.regions.pending = none) := by
  obtain ⟨k, p, sound⟩ := Sound.runInvariant.reachable (fun options => ⟨0, none, .fresh options⟩) h
  refine ⟨sound.consistent, ?_, ?_⟩
  · intro step cause state' hs
    have y := Sound.runInvariant.exec step bodies state ⟨k, p, sound⟩
    exact (y.of_error hs).1 cause rfl
  · intro template header s hs
    obtain ⟨_, regions, _⟩ := (Action.writeOpening_yields sound.toLayered template).of_ok hs
    rw [regions]
    rfl

/-- A machine in the body of a block, with another block opened there. -/
def openedInBody : Machine :=
  let start := ((Machine.ofOptions {}).watch [.begin (.memory {})]).2
  let inner := (Machine.outcome (Machine.enterBlock "A" "") start).2
  (Machine.outcome (Step.exec (.openBlock "B" "")) inner).2

/-- The machine is consistent, and both of the imbalances are met from it. -/
theorem consistent_openedInBody :
    Reachable {} .empty 1 openedInBody ∧ Consistent 1 openedInBody.session ∧
      openedInBody.session.regions = [some ⟨"B", ""⟩, none] ∧
      (Machine.outcome (Step.exec .finish) openedInBody).1 = .error (.imbalance .endingInside) ∧
      (Machine.outcome (Step.exec (.run [.closeBlock, .closeBlock])) openedInBody).1 =
        .error (.imbalance .nonePending) := by
  have entered : Machine.enterBlock "A" "" ((Machine.ofOptions {}).watch [.begin (.memory {})]).2 =
      .ok ⟨"A", ""⟩ _ := Machine.eq_ok_of_outcome (by cbv)
  have opened : Passes [.openBlock "B" ""] _ 0 openedInBody :=
    .later (Machine.eq_ok_of_outcome (a := .done) (by cbv)) .here
  have reachable : Reachable {} .empty 1 openedInBody :=
    ⟨[.begin (.memory {})], [.block "A" "" [.openBlock "B" ""]], .inBlock entered opened⟩
  exact ⟨reachable, (reachable_consistent reachable).1, by cbv, by cbv, by cbv⟩

end Polyadic.Session
