import Polyadic.Toml.Reader
import Mathlib

/-!
# What readers consume

A reader consumes a part of the text that is left, from its front on (`Reads`). There is one rule for each way in
which a reader is built: what a sequence consumes is what its parts consume, one after the other (`Reads.bind`),
and what is located stands where it was consumed (`Reads.located`). A repeated reader is known by what holds between
its rounds (`Reads.collect`).
-/

namespace Polyadic.Toml.Reader

open Text (Span Located byteLength)

variable {α β : Type}

/-- Whatever the reader reads, the relation holds of the text before it, the text that it consumes, what it
answers, and the text that is left. -/
def Reads (read : Reader α) (Post : List Char → List Char → α → List Char → Prop) : Prop :=
  ∀ ⦃before rest answer cursor⦄, read ⟨byteLength before, rest⟩ = some (answer, cursor) →
    ∃ taken left, rest = taken ++ left ∧ cursor = ⟨byteLength (before ++ taken), left⟩ ∧
      Post before taken answer left

section Sequences

variable {read : Reader α} {next : α → Reader β} {Post Post' : List Char → List Char → α → List Char → Prop}

lemma Reads.mono (h : Reads read Post)
    (imp : ∀ before taken answer left, Post before taken answer left → Post' before taken answer left) :
    Reads read Post' := by
  intro before rest answer cursor ran
  obtain ⟨taken, left, hrest, hcursor, post⟩ := h ran
  exact ⟨taken, left, hrest, hcursor, imp _ _ _ _ post⟩

lemma Reads.and (h : Reads read Post) (h' : Reads read Post') :
    Reads read fun before taken answer left => Post before taken answer left ∧ Post' before taken answer left := by
  intro before rest answer cursor ran
  obtain ⟨taken, left, rfl, rfl, post⟩ := h ran
  obtain ⟨taken', left', hrest, hcursor, post'⟩ := h' ran
  obtain ⟨_, rfl⟩ := Cursor.mk.inj hcursor
  cases List.append_cancel_right hrest
  exact ⟨taken, left, rfl, rfl, post, post'⟩

lemma Reads.pure (answer : α) : Reads (pure answer) fun _ taken answer' _ => taken = [] ∧ answer' = answer := by
  intro before rest answer' cursor ran
  cases ran
  exact ⟨[], rest, rfl, by rw [List.append_nil], rfl, rfl⟩

lemma Reads.bind {Q : α → List Char → List Char → β → List Char → Prop} (h : Reads read Post)
    (later : ∀ a, Reads (next a) (Q a)) :
    Reads (read >>= next) fun before taken answer left => ∃ first second a, taken = first ++ second ∧
      Post before first a (second ++ left) ∧ Q a (before ++ first) second answer left := by
  intro before rest answer cursor ran
  obtain ⟨⟨a, cursor'⟩, first, ran⟩ := Option.bind_eq_some_iff.mp ran
  obtain ⟨taken, left, rfl, rfl, post⟩ := h first
  obtain ⟨taken', left', rfl, rfl, post'⟩ := later a ran
  refine ⟨taken ++ taken', left', (List.append_assoc _ _ _).symm, ?_, taken, taken', a, rfl, post, post'⟩
  rw [List.append_assoc]

lemma Reads.failure : Reads (failure : Reader α) fun _ _ _ _ => False := by
  intro before rest answer cursor ran
  cases ran

lemma Reads.lift (answer? : Option α) :
    Reads (liftM answer?) fun _ taken answer _ => taken = [] ∧ answer? = some answer := by
  intro before rest answer cursor ran
  obtain ⟨answer', some, ran⟩ := Option.bind_eq_some_iff.mp ran
  cases ran
  exact ⟨[], rest, rfl, by rw [List.append_nil], rfl, some⟩

lemma Reads.of_guard (p : Prop) [Decidable p] : Reads (guard p) fun _ taken _ _ => taken = [] ∧ p := by
  unfold guard
  split
  · rename_i h
    exact (Reads.pure ()).mono fun _ _ _ _ post => ⟨post.1, h⟩
  · exact Reads.failure.mono fun _ _ _ _ => False.elim

lemma Reads.ite {p : Prop} [Decidable p] {other : Reader α} (yes : p → Reads read Post) (no : ¬ p → Reads other Post) :
    Reads (if p then read else other) Post := by
  by_cases h : p
  · rw [if_pos h]
    exact yes h
  · rw [if_neg h]
    exact no h

end Sequences

section Pieces

variable {read : Reader α} {Post : List Char → List Char → α → List Char → Prop}

lemma Reads.remaining : Reads remaining fun _ taken answer left => taken = [] ∧ answer = left := by
  intro before rest answer cursor ran
  cases ran
  exact ⟨[], rest, rfl, by rw [List.append_nil], rfl, rfl⟩

lemma Reads.skip (count : Nat) : Reads (skip count) fun _ taken _ left => taken = (taken ++ left).take count := by
  intro before rest answer cursor ran
  cases ran
  refine ⟨rest.take count, rest.drop count, (List.take_append_drop _ _).symm, ?_, ?_⟩
  · rw [Text.byteLength_append]
    rfl
  · beta_reduce
    rw [List.take_append_drop]

/-- What is skipped because it was seen to come next. -/
lemma Reads.skip_length (seen : List Char) :
    Reads (Reader.skip seen.length) fun _ taken _ left => seen <+: taken ++ left → taken = seen := by
  refine (Reads.skip _).mono fun _ taken _ left post next => ?_
  rw [post]
  exact (List.prefix_iff_eq_take.mp next).symm

lemma Reads.takeWhile (p : Char → Bool) : Reads (takeWhile p) fun _ taken answer left =>
    answer = taken ∧ (∀ c ∈ taken, p c = true) ∧ ∀ c ∈ left.head?, p c = false := by
  unfold Reader.takeWhile
  refine (Reads.remaining.bind fun rest =>
    (Reads.skip_length _).bind fun _ => Reads.pure (rest.takeWhile p)).mono ?_
  rintro before _ answer left ⟨_, _, rest, rfl, ⟨rfl, rfl⟩, taken, _, _, rfl, skipped, rfl, rfl⟩
  simp only [List.nil_append, List.append_nil] at *
  have first := List.head?_dropWhile_not p (taken ++ left)
  have taken_eq := skipped (List.takeWhile_prefix p)
  have left_eq := List.takeWhile_append_dropWhile (p := p) (l := taken ++ left)
  rw [← taken_eq, List.append_cancel_left_eq] at left_eq
  rw [left_eq] at first
  refine ⟨taken_eq.symm, ?_, fun c hc => ?_⟩
  · rw [taken_eq]
    exact fun c hc => List.mem_takeWhile_imp hc
  · rw [Option.mem_def.mp hc] at first
    exact first

lemma Reads.accept (text : List Char) : Reads (accept text) fun _ taken answer left =>
    answer = true ∧ taken = text ∨ answer = false ∧ taken = [] ∧ ¬ text <+: left := by
  unfold Reader.accept
  refine (Reads.remaining.bind (Q := fun rest _ taken answer left => rest = taken ++ left →
    answer = true ∧ taken = text ∨ answer = false ∧ taken = [] ∧ ¬ text <+: left) fun rest => ?_).mono ?_
  · refine .ite (fun next => ?_) fun other => ?_
    · refine ((Reads.skip_length text).bind fun _ => Reads.pure true).mono ?_
      rintro before _ answer left ⟨taken, _, _, rfl, skipped, rfl, rfl⟩ rfl
      rw [List.append_nil] at *
      exact .inl ⟨rfl, skipped (List.isPrefixOf_iff_prefix.mp next)⟩
    · refine (Reads.pure false).mono ?_
      rintro before _ answer left ⟨rfl, rfl⟩ rfl
      exact .inr ⟨rfl, rfl, mt List.isPrefixOf_iff_prefix.mpr other⟩
  · rintro before _ answer left ⟨_, taken, rest, rfl, ⟨rfl, rfl⟩, post⟩
    exact post rfl

lemma Reads.expect (text : List Char) : Reads (expect text) fun _ taken _ _ => taken = text := by
  unfold Reader.expect
  refine ((Reads.accept text).bind fun next => Reads.of_guard (next = true)).mono ?_
  rintro before _ answer left ⟨taken, _, next, rfl, accepted, rfl, rfl⟩
  obtain ⟨_, rfl⟩ | ⟨impossible, _⟩ := accepted
  · exact List.append_nil taken
  · cases impossible

lemma Reads.atEnd : Reads atEnd fun _ taken answer left => taken = [] ∧ (answer = true ↔ left = []) := by
  unfold Reader.atEnd
  refine (Reads.remaining.bind fun rest => Reads.pure rest.isEmpty).mono ?_
  rintro before _ answer left ⟨_, _, rest, rfl, ⟨rfl, rfl⟩, rfl, rfl⟩
  exact ⟨rfl, List.isEmpty_iff⟩

/-- What is located stands where it was consumed. -/
lemma Reads.located (h : Reads read Post) : Reads (located read) fun before taken answer left =>
    answer.span = ⟨byteLength before, byteLength taken⟩ ∧ Post before taken answer.item left := by
  intro before rest answer cursor ran
  obtain ⟨⟨item, cursor'⟩, ran', ran⟩ := Option.bind_eq_some_iff.mp ran
  obtain ⟨taken, left, rfl, rfl, post⟩ := h ran'
  cases ran
  refine ⟨taken, left, rfl, rfl, ?_, post⟩
  rw [Text.byteLength_append, Nat.add_sub_cancel_left]

end Pieces

section Rounds

variable {read : Reader (Option α)} {I : List α → List Char → List Char → Prop}
  {D : List α → List Char → List Char → List Char → Prop}

/-- One round of a repeated reader: after an item the invariant holds again, without one the reader is done. -/
def Round (I : List α → List Char → List Char → Prop) (D : List α → List Char → List Char → List Char → Prop)
    (before taken : List Char) (item : Option α) (left : List Char) : Prop :=
  ∀ items, I items before (taken ++ left) →
    match item with
    | some item => I (items ++ [item]) (before ++ taken) left
    | none => D items before taken left

lemma Reads.repeatFor (round : Reads read (Round I D)) (count : Nat) :
    Reads (repeatFor read count) fun before taken more left => ∀ items, I items before (taken ++ left) →
      ∃ earlier last, taken = earlier ++ last ∧ D (items ++ more) (before ++ earlier) last left := by
  induction count with
  | zero =>
    exact Reads.failure.mono fun _ _ _ _ => False.elim
  | succ count ih =>
    refine (round.bind (Q := fun item before taken more left => match item with
      | some item => ∃ rest, more = item :: rest ∧ ∀ items, I items before (taken ++ left) →
        ∃ earlier last, taken = earlier ++ last ∧ D (items ++ rest) (before ++ earlier) last left
      | none => taken = [] ∧ more = []) ?_).mono ?_
    · intro item
      cases item with
      | none => exact Reads.pure []
      | some item =>
        refine (ih.bind fun rest => Reads.pure (item :: rest)).mono ?_
        rintro before _ more left ⟨taken, _, rest, rfl, post, rfl, rfl⟩
        rw [List.append_nil] at *
        exact ⟨rest, rfl, post⟩
    · rintro before _ more left ⟨first, second, item, rfl, post, later⟩ items inv
      rw [List.append_assoc] at inv
      have next := post items inv
      cases item with
      | none =>
        obtain ⟨rfl, rfl⟩ := later
        rw [List.append_nil]
        exact ⟨[], first, rfl, by rwa [List.append_nil, List.append_nil]⟩
      | some item =>
        obtain ⟨rest, rfl, later⟩ := later
        obtain ⟨earlier, last, rfl, done⟩ := later _ next
        refine ⟨first ++ earlier, last, (List.append_assoc _ _ _).symm, ?_⟩
        rwa [List.append_assoc, List.singleton_append, List.append_assoc] at done

/-- A repeated reader keeps what every round keeps. -/
lemma Reads.collect (round : Reads read (Round I D)) : Reads (collect read) fun before taken items left =>
    I [] before (taken ++ left) → ∃ earlier last, taken = earlier ++ last ∧
      D items (before ++ earlier) last left := by
  unfold Reader.collect
  refine (Reads.remaining.bind fun rest => Reads.repeatFor round (rest.length + 1)).mono ?_
  rintro before _ items left ⟨_, taken, rest, rfl, ⟨rfl, rfl⟩, post⟩ inv
  rw [List.append_nil] at post
  exact post [] inv

/-- A repeated reader answers what its rounds answer. -/
lemma Reads.collect_each {E : List Char → α → Prop}
    (each : Reads read fun before taken item left => ∀ answer ∈ item, E (before ++ taken ++ left) answer) :
    Reads (Reader.collect read) fun before taken items left =>
      ∀ answer ∈ items, E (before ++ taken ++ left) answer := by
  refine (Reads.collect (I := fun items before rest => ∀ answer ∈ items, E (before ++ rest) answer)
    (D := fun items before taken left => ∀ answer ∈ items, E (before ++ taken ++ left) answer)
    (each.mono fun before taken item left post items inv => ?_)).mono ?_
  · beta_reduce at inv
    rw [← List.append_assoc] at inv
    cases item with
    | none => exact inv
    | some answer =>
      exact List.forall_mem_append.mpr ⟨inv, List.forall_mem_singleton.mpr (post answer rfl)⟩
  · intro before taken items left post
    obtain ⟨earlier, last, rfl, done⟩ := post nofun
    rwa [List.append_assoc before] at done

/-- A repeated reader that answers nothing consumes nothing, if this holds of its last round. -/
lemma Reads.collect_nil (last : Reads read fun _ taken item _ => item = none → taken = []) :
    Reads (Reader.collect read) fun _ taken items _ => items = [] → taken = [] := by
  intro start rest items cursor ran
  have round : Reads read (Round (fun items before _ => items = [] → before = start)
      fun items before taken _ => items = [] → before = start ∧ taken = []) := by
    refine last.mono fun before taken item left post items same => ?_
    cases item with
    | none => exact fun empty => ⟨same empty, post rfl⟩
    | some item => exact fun impossible => absurd impossible (List.append_ne_nil_of_right_ne_nil _ nofun)
  obtain ⟨taken, left, hrest, hcursor, post⟩ := Reads.collect round ran
  refine ⟨taken, left, hrest, hcursor, fun empty => ?_⟩
  obtain ⟨earlier, rest, rfl, done⟩ := post fun _ => rfl
  obtain ⟨same, rfl⟩ := done empty
  rw [List.append_right_eq_self.mp same, List.append_nil]

end Rounds

end Polyadic.Toml.Reader
