import Polyadic.Proofs.Session.Writing

/-!
# Regions and depth

What every operation on blocks does to the regions and to the depth, whether it succeeds or fails.
`Layered` is the shape that the regions always have: only the current one has a pending block, and each
block that is entered or pending still has its level of depth. A failed write may leave the depth greater
than that, but never smaller, so that closing a block never runs out of depth.
-/

namespace Polyadic.Session

/-- So many blocks are entered, `pending` is the pending block of the current region and no other region
has one, and each of these blocks has its level of depth. -/
structure Layered (entered : Nat) (pending : Option Block) (s : Session) : Prop where
  regions : s.regions = pending :: List.replicate entered none
  depth : entered + pending.toList.length ≤ s.writer.depth

namespace Layered

variable {k : Nat} {p : Option Block} {s s' : Session}

lemma entered (h : Layered k p s) : s.regions.entered = k := by
  simp [Regions.entered, h.regions]

lemma pending (h : Layered k p s) : s.regions.pending = p := by
  simp [Regions.pending, h.regions]

lemma wrote (h : Layered k p s) (w : Wrote s s') : Layered k p s' :=
  ⟨w.regions.trans h.regions, w.depth ▸ h.depth⟩

end Layered

/-- No scope was opened or left and no pass begun or ended, and nothing is pending in the current region. -/
structure Settled (entered : Nat) (s s' : Session) : Prop extends Steady s s', Layered entered none s'

lemma Settled.of_steady {k : Nat} {s s' s'' : Session} (h : Steady s s') (h' : Settled k s' s'') :
    Settled k s s'' :=
  ⟨h.trans h'.toSteady, h'.toLayered⟩

/-- The imbalances that occur: an explicit close may meet nothing, and a pass may be ended in a block. -/
def Error.IsExpected (e : Error) : Prop :=
  ∀ cause, e = .imbalance cause → cause = .nonePending ∨ cause = .endingInside

lemma Refused.isExpected {e : Error} {s : Session} (h : Refused e s) : e.IsExpected := by
  rintro cause rfl
  obtain ⟨⟨⟩, _⟩ | ⟨⟨⟩, _⟩ := h

lemma Error.IsExpected.placeholder (cause : Template.Error) : (Error.placeholder cause).IsExpected :=
  nofun

namespace Action

variable {k : Nat} {p : Option Block} {s : Session}

lemma writeClosing_yields (block : Block) (regions : s.regions = none :: List.replicate k none)
    (depth : k + 1 ≤ s.writer.depth) :
    Yields (writeClosing block) s (fun _ s' => Settled k s s' ∧ s.HasRoom)
      (fun e s' => Settled k s s' ∧ Refused e s') := by
  obtain ⟨braces, ⟨indent, sink, _ | depth', lines⟩, regions', scopes⟩ := s
  · exact absurd depth (by simp)
  · let raised : Session := ⟨braces, ⟨indent, sink, depth', lines⟩, regions', scopes⟩
    have layered : Layered k none raised := ⟨regions, Nat.le_of_succ_le_succ depth⟩
    refine (writeLine_yields raised _).mono ?_ ?_
    · intro _ s' ⟨wrote, active, free⟩
      exact ⟨⟨⟨wrote.scopes, wrote.active, wrote.full⟩, layered.wrote wrote⟩, active, free⟩
    · intro e s' ⟨wrote, refused⟩
      exact ⟨⟨⟨wrote.scopes, wrote.active, wrote.full⟩, layered.wrote wrote⟩, refused⟩

lemma takePending_yields {fail : Error → Session → Prop} (h : Layered k p s) :
    Yields takePending s (fun taken s' => taken = p ∧ s'.regions = none :: List.replicate k none ∧
      s'.writer = s.writer ∧ Steady s s') fail := by
  unfold Yields takePending
  rw [h.regions]
  exact ⟨rfl, rfl, rfl, rfl, rfl, id⟩

/-- Nothing is pending in the current region after its block was closed, nor after that has failed. -/
lemma closeIfPending_yields (h : Layered k p s) :
    Yields closeIfPending s (fun _ s' => Settled k s s' ∧ (p ≠ none → s.HasRoom))
      (fun e s' => Settled k s s' ∧ Refused e s' ∧ p ≠ none) := by
  refine .bind (takePending_yields h) ?_
  rintro taken s' ⟨rfl, regions, writer, steady⟩
  cases taken with
  | none =>
    refine .pure ⟨⟨steady, regions, ?_⟩, fun hp => absurd rfl hp⟩
    rw [writer]
    exact h.depth
  | some block =>
    have depth : k + 1 ≤ s'.writer.depth := writer ▸ h.depth
    refine (writeClosing_yields block regions depth).mono ?_ ?_
    · intro _ s'' ⟨settled, room⟩
      exact ⟨.of_steady steady settled, fun _ => steady.hasRoom room⟩
    · intro e s'' ⟨settled, refused⟩
      exact ⟨.of_steady steady settled, refused, nofun⟩

lemma closeIfPending_settles (h : Layered k p s) :
    Yields closeIfPending s (fun _ s' => Settled k s s') (fun e s' => Settled k s s' ∧ e.IsExpected) := by
  refine (closeIfPending_yields h).mono (fun _ _ h => h.1) ?_
  intro e s' ⟨settled, refused, _⟩
  exact ⟨settled, refused.isExpected⟩

lemma statement_yields (h : Layered k p s) (template terminator : String) :
    Yields (statement template terminator) s (fun _ s' => Settled k s s')
      (fun e s' => Settled k s s' ∧ e.IsExpected) := by
  refine .bind (closeIfPending_settles h) fun _ s₁ settled => ?_
  refine .bind (.resolve fun cause => ⟨settled, .placeholder cause⟩) ?_
  rintro line s₂ rfl
  refine (writeLine_yields _ _).mono ?_ ?_
  · intro _ s' ⟨wrote, _⟩
    exact .of_steady settled.toSteady ⟨wrote.toSteady, settled.toLayered.wrote wrote⟩
  · intro e s' ⟨wrote, refused⟩
    exact ⟨.of_steady settled.toSteady ⟨wrote.toSteady, settled.toLayered.wrote wrote⟩,
      refused.isExpected⟩

/-- After the opening of a block was written, the region has a level of depth to spare for it. -/
lemma writeOpening_yields (h : Layered k p s) (template : String) :
    Yields (writeOpening template) s
      (fun _ s' => Steady s s' ∧ s'.regions = none :: List.replicate k none ∧
        k + 1 ≤ s'.writer.depth ∧ s.HasRoom)
      (fun e s' => Settled k s s' ∧ e.IsExpected) := by
  refine .bind (closeIfPending_settles h) fun _ s₁ settled => ?_
  refine .bind (.resolve fun cause => ⟨settled, .placeholder cause⟩) ?_
  rintro header s₂ rfl
  refine .get_bind ?_
  refine .bind ((writeLines_yields s₂ (openingLines s₂.braces header)).mono
    (fun _ _ h => h) ?_) ?_
  · intro e s' ⟨wrote, refused⟩
    exact ⟨.of_steady settled.toSteady ⟨wrote.toSteady, settled.toLayered.wrote wrote⟩,
      refused.isExpected⟩
  intro _ s₃ ⟨wrote, room⟩
  have lines : openingLines s₂.braces header ≠ [] := by
    unfold openingLines
    split <;> simp
  have steady := settled.toSteady.trans wrote.toSteady
  have layered := settled.toLayered.wrote wrote
  have depth : k ≤ s₃.writer.depth := layered.depth
  exact ⟨⟨steady.scopes, steady.active, steady.full⟩, layered.regions,
    Nat.succ_le_succ depth, settled.toSteady.hasRoom (room lines)⟩

/-- An opened block is pending in its region, which has nothing pending if the opening has failed. -/
lemma openBlock_yields (h : Layered k p s) (header suffix : String) :
    Yields (openBlock header suffix) s
      (fun _ s' => ∃ block, Layered k (some block) s' ∧ Steady s s' ∧ s.HasRoom)
      (fun e s' => Settled k s s' ∧ e.IsExpected) := by
  refine .bind (writeOpening_yields h header) ?_
  intro header s' ⟨steady, regions, depth, room⟩
  unfold Yields setPending
  rw [regions]
  exact ⟨⟨header, suffix⟩, ⟨rfl, depth⟩, ⟨steady.scopes, steady.active, steady.full⟩, room⟩

lemma enter_yields {block : Block} {fail : Error → Session → Prop} (h : Layered k (some block) s) :
    Yields enter s (fun entered s' => entered = block ∧ Settled (k + 1) s s') fail := by
  refine .bind (takePending_yields h) ?_
  rintro taken s' ⟨rfl, regions, writer, steady⟩
  have settled : Settled (k + 1) s { s' with regions := none :: s'.regions } := by
    refine ⟨⟨steady.scopes, steady.active, steady.full⟩, ?_, ?_⟩
    · show none :: s'.regions = _
      rw [regions]
      rfl
    · show k + 1 ≤ s'.writer.depth
      rw [writer]
      exact h.depth
  exact ⟨rfl, settled⟩

/-- Opening a block and entering it enters one block more, unless the opening fails. -/
lemma openBlock_enter_yields (h : Layered k p s) (header suffix : String) :
    Yields (do openBlock header suffix; enter) s
      (fun _ s' => Settled (k + 1) s s' ∧ s.HasRoom)
      (fun e s' => Settled k s s' ∧ e.IsExpected) := by
  refine .bind (openBlock_yields h header suffix) ?_
  intro _ s' ⟨block, layered, steady, room⟩
  refine (enter_yields layered).mono ?_ (fun e s'' h => h)
  intro _ s'' ⟨_, settled⟩
  exact ⟨.of_steady steady settled, room⟩

lemma closeBlock_yields (h : Layered k p s) :
    Yields closeBlock s (fun _ s' => Settled k s s') (fun e s' => Settled k s s' ∧ e.IsExpected) := by
  refine (closeIfPending_settles h).closeBlock (fun _ s' settled => settled) fun _ s' settled => ⟨settled, ?_⟩
  rintro cause ⟨⟩
  exact .inl rfl

/-- An entered block is left without writing, and keeps its level of depth. -/
lemma abandon_yields {fail : Error → Session → Prop} (block : Block) (h : Layered (k + 1) p s) :
    Yields (abandon block) s (fun _ s' => Steady s s' ∧
      s'.regions = none :: List.replicate k none ∧ s'.writer = s.writer) fail := by
  unfold Yields abandon
  rw [h.regions]
  exact ⟨⟨rfl, rfl, id⟩, rfl, rfl⟩

/-- A block is completed and its region left, and then closed or not; but if the block pending in the
region cannot be closed, the region is not left. -/
lemma complete_yields (block : Block) (h : Layered (k + 1) p s) :
    Yields (complete block) s
      (fun _ s' => Settled k s s' ∧ s.HasRoom ∧ ∀ e' s'', closeIfPending s ≠ .error e' s'')
      (fun e s' => Refused e s' ∧
        ((Settled k s s' ∧ ∀ e' s'', closeIfPending s ≠ .error e' s'') ∨
          (Settled (k + 1) s s' ∧ p ≠ none ∧ closeIfPending s = .error e s'))) := by
  have closing := closeIfPending_yields h
  unfold complete
  cases hc : closeIfPending s with
  | error e s' =>
    -- The failure comes before the region is left.
    obtain ⟨settled, refused, hp⟩ := closing.of_error hc
    rw [Yields, bind_of_error hc]
    exact ⟨refused, .inr ⟨settled, hp, rfl⟩⟩
  | ok _ s' =>
    obtain ⟨settled, _⟩ := closing.of_ok hc
    have closes : ∀ e' s'', EStateM.Result.ok () s' ≠ .error (e' : Error) s'' := by
      intro e' s'' h
      cases h
    rw [Yields, bind_of_ok hc]
    refine Yields.bind (abandon_yields block settled.toLayered) ?_
    intro _ s₁ left
    obtain ⟨steady, regions, writer⟩ := left
    have steady := settled.toSteady.trans steady
    have depth : k + 1 ≤ s₁.writer.depth := writer ▸ settled.depth
    refine (writeClosing_yields block regions depth).mono ?_ ?_
    · intro _ s₂ closed
      obtain ⟨settled', room⟩ := closed
      exact ⟨.of_steady steady settled', steady.hasRoom room, closes⟩
    · intro e s₂ failed
      obtain ⟨settled', refused⟩ := failed
      exact ⟨refused, .inl ⟨.of_steady steady settled', closes⟩⟩

lemma begin_yields (s : Session) (sink : Sink) :
    Yields (begin sink) s
      (fun _ s' => Layered 0 none s' ∧ s'.isActive = true ∧ s.isActive = false ∧ s'.scopes = s.scopes)
      (fun e s' => e = .alreadyActive ∧ s' = s ∧ s.isActive = true) := by
  obtain ⟨braces, ⟨indent, _ | sink', depth, lines⟩, regions, scopes⟩ := s
  · exact ⟨⟨rfl, Nat.le_refl 0⟩, rfl, rfl, rfl⟩
  · exact ⟨rfl, rfl, rfl⟩

/-- The sink of a pass is given back, or given up if it cannot be flushed. -/
lemma detach_yields (h : Layered k p s) (active : s.isActive = true) :
    Yields (ofWriter Writer.detach) s
      (fun _ s' => Layered k p s' ∧ s'.isActive = false ∧ s'.scopes = s.scopes)
      (fun e s' => Layered k p s' ∧ s'.scopes = s.scopes ∧ e = .write) := by
  refine .detach (fun idle => ?_) (fun _ _ _ => ?_) fun _ _ _ => ?_
  · cases active.symm.trans idle
  · exact ⟨⟨h.regions, h.depth⟩, rfl, rfl⟩
  · exact ⟨⟨h.regions, h.depth⟩, rfl, rfl⟩

/-- A pass ends at the top level, even if the sink cannot be flushed. It does not end inside a block. -/
lemma finish_yields (h : Layered k p s) :
    Yields finish s
      (fun _ s' => k = 0 ∧ Layered 0 none s' ∧ s'.isActive = false ∧ s'.scopes = s.scopes)
      (fun e s' => (s' = s ∧ e = .noSink ∧ s.isActive = false) ∨
        (s' = s ∧ e = .imbalance .endingInside ∧ k ≠ 0 ∧ s.isActive = true) ∨
        (k = 0 ∧ Layered 0 none s' ∧ s'.scopes = s.scopes ∧ e = .write)) := by
  have wrapped : Yields wrapUp s (fun _ s' => k = 0 ∧ s'.isActive = true ∧ Settled 0 s s')
      (fun e s' => (s' = s ∧ e = .noSink ∧ s.isActive = false) ∨
        (s' = s ∧ e = .imbalance .endingInside ∧ k ≠ 0 ∧ s.isActive = true) ∨
        (k = 0 ∧ Layered 0 none s' ∧ s'.scopes = s.scopes ∧ e = .write)) := by
    refine .wrapUp (fun idle => .inl ⟨rfl, rfl, idle⟩) (fun active inside => ?_) fun active top => ?_
    · rw [h.entered] at inside
      exact .inr (.inl ⟨rfl, rfl, inside, active⟩)
    obtain rfl : k = 0 := h.entered.symm.trans top
    refine (closeIfPending_yields h).mono ?_ ?_
    · exact fun _ s' h' => ⟨rfl, h'.1.active.trans active, h'.1⟩
    · intro e s' ⟨settled, refused, _⟩
      obtain ⟨he, _⟩ | ⟨_, idle⟩ := refused
      · exact .inr (.inr ⟨rfl, settled.toLayered, settled.scopes, he⟩)
      · exact absurd (idle.symm.trans (settled.active.trans active)) (by decide)
  refine .bind wrapped ?_
  rintro _ s' ⟨rfl, active, settled⟩
  exact (detach_yields settled.toLayered active).mono
    (fun _ s'' ⟨layered, idle, scopes⟩ => ⟨rfl, layered, idle, scopes.trans settled.scopes⟩)
    (fun e s'' ⟨layered, scopes, he⟩ => .inr (.inr ⟨rfl, layered, scopes.trans settled.scopes, he⟩))

end Action

end Polyadic.Session
