import Polyadic.Text.LineDiff
import Mathlib

/-!
# What is told of differences

A message about two texts is truthful (`IsTruthful`) if it lists the first twenty places at which their lines differ,
where a line that only one of them has counts as a difference. The comparison goes through what is shown for the lines,
and a missing line is shown by a text that a line may have as well (`IsMasked`). So it finds the differing places but
for the masked ones (`differences_eq_map`), and the message is truthful exactly if none of the places to be listed is
masked, and it is not exactly twenty places that differ (`mismatch?_truthful_iff`).
-/

namespace Polyadic.Text

/-! ## Places -/

/-- The places at which two lists of lines differ, in order and counted from zero. Where only one of them has a line,
they differ. -/
def differing (expected actual : List String) : List Nat :=
  (List.range (max expected.length actual.length)).filter fun place => expected[place]? ≠ actual[place]?

/-- What is shown for the line at a place. -/
def shown (lines : List String) (place : Nat) : String :=
  lines[place]?.getD missingLine

/-- One list has no line at the place, and the line of the other reads like what is shown for a missing one. -/
def IsMasked (expected actual : List String) (place : Nat) : Prop :=
  (expected[place]? = none ∧ actual[place]? = some missingLine) ∨
    (expected[place]? = some missingLine ∧ actual[place]? = none)

instance (expected actual : List String) (place : Nat) : Decidable (IsMasked expected actual place) :=
  inferInstanceAs (Decidable (_ ∨ _))

section Places

variable {expected actual : List String} {place : Nat}

lemma mem_differing : place ∈ differing expected actual ↔ expected[place]? ≠ actual[place]? := by
  rw [differing, List.mem_filter, List.mem_range, decide_eq_true_eq, and_iff_right_iff_imp]
  intro differ
  by_contra beyond
  rw [Nat.not_lt, Nat.max_le] at beyond
  exact differ ((List.getElem?_eq_none beyond.1).trans (List.getElem?_eq_none beyond.2).symm)

lemma differing_eq_nil_iff : differing expected actual = [] ↔ expected = actual := by
  rw [List.eq_nil_iff_forall_not_mem, List.ext_getElem?_iff]
  simp only [mem_differing, not_not]

lemma differing_sorted (expected actual : List String) : (differing expected actual).Pairwise (· < ·) :=
  List.pairwise_lt_range.filter _

lemma shown_ne_iff : shown expected place ≠ shown actual place ↔
    expected[place]? ≠ actual[place]? ∧ ¬ IsMasked expected actual place := by
  unfold shown IsMasked
  cases expected[place]? <;> cases actual[place]? <;> simp [eq_comm]

/-! ## The places that are found -/

/-- The differences between what is shown for lines, where the first line has the number `start`. -/
def found (start : Nat) (expected actual : List String) : List LineDifference :=
  ((List.range (max expected.length actual.length)).filter fun place => shown expected place ≠ shown actual place).map
    fun place => ⟨start + place, shown expected place, shown actual place⟩

lemma shown_tail (lines : List String) (place : Nat) : shown lines.tail place = shown lines (place + 1) := by
  rw [shown, List.getElem?_tail, shown]

lemma found_step (start : Nat) (some : 0 < max expected.length actual.length) : found start expected actual =
    lineDifference start (shown expected 0) (shown actual 0) ++ found (start + 1) expected.tail actual.tail := by
  obtain ⟨n, hn⟩ := Nat.exists_eq_add_one.mpr some
  have rest : max expected.tail.length actual.tail.length = n := by
    rw [List.length_tail, List.length_tail]
    omega
  have later : ((List.range n).filter fun place => shown expected.tail place ≠ shown actual.tail place).map
      (fun place => LineDifference.mk (start + 1 + place) (shown expected.tail place) (shown actual.tail place)) =
      (((List.range n).map Nat.succ).filter fun place => shown expected place ≠ shown actual place).map
        fun place => ⟨start + place, shown expected place, shown actual place⟩ := by
    rw [List.filter_map, List.map_map]
    simp only [shown_tail, Function.comp_def, Nat.succ_eq_add_one, Nat.add_assoc, Nat.add_comm 1]
  rw [found, hn, List.range_succ_eq_map, found, rest, later, List.filter_cons, lineDifference]
  by_cases same : shown expected 0 = shown actual 0
  · simp [same]
  · simp [same]

/-- The comparison goes through all places that one of the lists has. -/
theorem differences_eq (start : Nat) (expected actual : List String) :
    differences start expected actual = found start expected actual := by
  induction start, expected, actual using differences.induct with
  | case1 n => simp only [differences, found, List.length_nil, max_self, List.range_zero, List.filter_nil, List.map_nil]
  | case2 n line lines ih =>
    rw [differences, ih, found_step n (by simp)]
    rfl
  | case3 n line lines ih =>
    rw [differences, ih, found_step n (by simp)]
    rfl
  | case4 n line lines line' lines' ih =>
    rw [differences, ih, found_step n (by simp)]
    rfl

/-- The comparison finds the differences that are not masked. -/
lemma differences_eq_map (expected actual : List String) : differences 1 expected actual =
    ((differing expected actual).filter fun place => ¬ IsMasked expected actual place).map fun place =>
      ⟨place + 1, shown expected place, shown actual place⟩ := by
  rw [differences_eq, found, differing, List.filter_filter]
  simp only [shown_ne_iff, Bool.decide_and, Nat.add_comm 1, Bool.and_comm]

end Places

/-! ## Listings -/

/-- The line at a place as it is listed, with both sides. -/
def entry (expected actual : List String) (place : Nat) : String :=
  s!"Line {place + 1}:\n" ++
  s!"  expected: {quote (shown expected place)}\n" ++
  s!"  actual:   {quote (shown actual place)}\n"

/-- The lines at some places, one after the other. -/
def listing (expected actual : List String) (places : List Nat) : String :=
  String.join (places.map (entry expected actual))

/-- The message tells how two lists of lines differ: it lists the first twenty lines at which they do, says with
dots that there are more of them, and says that only the ends of lines differ if the lists are the same. -/
def IsTruthful (expected actual : List String) (message : String) : Prop :=
  let places := differing expected actual
  message = "Content mismatch:\n" ++
    (if expected = actual then "  (line terminators differ)\n" else listing expected actual (places.take 20)) ++
    (if 20 < places.length then "  ...\n" else "")

section Listings

variable {expected actual : List String} {place place' : Nat} {rest rest' : String}

lemma listing_append (places places' : List Nat) : listing expected actual (places ++ places') =
    listing expected actual places ++ listing expected actual places' := by
  rw [listing, List.map_append, String.join_append, listing, listing]

lemma listing_cons (place : Nat) (places : List Nat) : listing expected actual (place :: places) =
    entry expected actual place ++ listing expected actual places := by
  rw [listing, List.map_cons, String.join_cons, listing]

lemma toList_entry (expected actual : List String) (place : Nat) : ∃ behind, (entry expected actual place).toList =
    "Line ".toList ++ (Nat.toDigits 10 (place + 1) ++ ':' :: behind) := by
  have number : (toString (place + 1)).toList = Nat.toDigits 10 (place + 1) := String.toList_ofList
  have colon : (toString ":\n").toList = ':' :: "\n".toList := by decide
  unfold entry
  simp only [String.toList_append, number, colon, List.append_assoc, List.cons_append]
  exact ⟨_, rfl⟩

/-- An entry is known from its number, which stands in front of a colon. -/
lemma place_eq_of_entry (h : entry expected actual place ++ rest = entry expected actual place' ++ rest') :
    place = place' := by
  have digits (n : Nat) : ∀ d ∈ Nat.toDigits 10 n, d.isDigit = true :=
    fun d hd => Nat.isDigit_of_mem_toDigits (by decide) (by decide) hd
  have read (n : Nat) (behind : List Char) :
      (Nat.toDigits 10 n ++ ':' :: behind).takeWhile Char.isDigit = Nat.toDigits 10 n := by
    rw [List.takeWhile_append_of_pos (digits n), List.takeWhile_cons_of_neg (by decide), List.append_nil]
  obtain ⟨behind, hentry⟩ := toList_entry expected actual place
  obtain ⟨behind', hentry'⟩ := toList_entry expected actual place'
  have chars := congrArg String.toList h
  simp only [String.toList_append, hentry, hentry', List.append_assoc, List.append_cancel_left_eq,
    List.cons_append] at chars
  have number := congrArg (List.takeWhile Char.isDigit) chars
  rw [read, read] at number
  have same : Nat.repr (place + 1) = Nat.repr (place' + 1) := by rw [Nat.repr, Nat.repr, number]
  exact Nat.succ.inj (Nat.repr_inj.mp same)

lemma ne_entry {text : String} (h : text.toList.head? ≠ some 'L') : text ≠ entry expected actual place ++ rest := by
  rintro rfl
  obtain ⟨behind, hentry⟩ := toList_entry expected actual place
  rw [String.toList_append, hentry] at h
  exact h rfl

/-- What is told of the differences that are found. -/
lemma describeDifferences_map (places : List Nat) :
    describeDifferences (places.map fun place => ⟨place + 1, shown expected place, shown actual place⟩) =
      if places = [] then "  (line terminators differ)\n"
      else listing expected actual (places.take 20) ++ if 20 ≤ places.length then "  ...\n" else "" := by
  have text : (LineDifference.text ∘ fun place => ⟨place + 1, shown expected place, shown actual place⟩) =
      entry expected actual := rfl
  rw [describeDifferences, List.isEmpty_map, List.length_map, ← List.map_take, List.map_map, text]
  simp only [List.isEmpty_iff]
  rfl

end Listings

/-! ## Truthful messages -/

lemma take_filter_of_forall {α : Type} {p : α → Bool} {n : Nat} {l : List α} (h : ∀ x ∈ l.take n, p x = true) :
    (l.filter p).take n = l.take n := by
  induction l generalizing n with
  | nil => rfl
  | cons x l ih =>
    cases n with
    | zero => rfl
    | succ n =>
      rw [List.take_succ_cons, List.forall_mem_cons] at h
      rw [List.filter_cons_of_pos h.1, List.take_succ_cons, List.take_succ_cons, ih h.2]

section Truthful

variable {expected actual : List String}

/-- If no line is masked among those that should be listed, these lines are listed, and dots follow twenty lines. -/
lemma describeDifferences_of_unmasked
    (unmasked : ∀ place ∈ (differing expected actual).take 20, ¬ IsMasked expected actual place) :
    describeDifferences (differences 1 expected actual) =
      if expected = actual then "  (line terminators differ)\n"
      else listing expected actual ((differing expected actual).take 20) ++
        if 20 ≤ (differing expected actual).length then "  ...\n" else "" := by
  have same := take_filter_of_forall (p := fun place => ¬ IsMasked expected actual place)
    fun place h => decide_eq_true (unmasked place h)
  have lengths := congrArg List.length same
  rw [List.length_take, List.length_take] at lengths
  have empty : (differing expected actual).filter (fun place => ¬ IsMasked expected actual place) = [] ↔
      expected = actual := by
    rw [← differing_eq_nil_iff, ← List.length_eq_zero_iff, ← List.length_eq_zero_iff]
    omega
  have twenty : 20 ≤ ((differing expected actual).filter fun place => ¬ IsMasked expected actual place).length ↔
      20 ≤ (differing expected actual).length := by
    omega
  rw [differences_eq_map, describeDifferences_map, same]
  simp only [empty, twenty]

/-- If places are masked among those that should be listed, there is a first one. -/
lemma exists_first_masked {place : Nat} (listed : place ∈ (differing expected actual).take 20)
    (masked : IsMasked expected actual place) :
    ∃ front first rest, differing expected actual = front ++ first :: rest ∧ front.length < 20 ∧
      (∀ earlier ∈ front, ¬ IsMasked expected actual earlier) ∧ IsMasked expected actual first ∧
      ∀ later ∈ rest, first < later := by
  obtain ⟨first, hfirst⟩ := Option.isSome_iff_exists.mp
    (List.find?_isSome (p := fun place => IsMasked expected actual place).mpr ⟨place, listed, decide_eq_true masked⟩)
  obtain ⟨hmasked, front, back, hsplit, hfront⟩ := List.find?_eq_some_iff_append.mp hfirst
  have whole : differing expected actual = front ++ first :: (back ++ (differing expected actual).drop 20) := by
    rw [← List.cons_append, ← List.append_assoc, ← hsplit, List.take_append_drop]
  have short := congrArg List.length hsplit
  rw [List.length_take, List.length_append, List.length_cons] at short
  have sorted := differing_sorted expected actual
  rw [whole, List.pairwise_append, List.pairwise_cons] at sorted
  exact ⟨front, first, _, whole, by omega, fun earlier h => by simpa using hfront earlier h,
    of_decide_eq_true hmasked, sorted.2.1.1⟩

/-- If a line is masked among those that should be listed, another line or none is listed instead of the first such
one. -/
lemma describeDifferences_of_masked {place : Nat} (listed : place ∈ (differing expected actual).take 20)
    (masked : IsMasked expected actual place) (dots : String) :
    describeDifferences (differences 1 expected actual) ≠
      listing expected actual ((differing expected actual).take 20) ++ dots := by
  obtain ⟨front, first, rest, whole, short, hfront, hfirst, later⟩ := exists_first_masked listed masked
  obtain ⟨room, hroom⟩ := Nat.exists_eq_add_one.mpr (Nat.sub_pos_of_lt short)
  have told : listing expected actual ((differing expected actual).take 20) = listing expected actual front ++
      (entry expected actual first ++ listing expected actual (rest.take room)) := by
    rw [whole, List.take_append, List.take_of_length_le short.le, hroom, List.take_succ_cons, listing_append,
      listing_cons]
  have kept : (differing expected actual).filter (fun place => ¬ IsMasked expected actual place) =
      front ++ rest.filter fun place => ¬ IsMasked expected actual place := by
    rw [whole, List.filter_append, List.filter_cons_of_neg (by simpa using hfirst),
      List.filter_eq_self.mpr fun earlier h => decide_eq_true (hfront earlier h)]
  rw [differences_eq_map, describeDifferences_map, kept, told]
  split
  case isTrue empty =>
    rw [List.append_eq_nil_iff] at empty
    rw [empty.1, listing, List.map_nil, String.join_nil, String.empty_append, String.append_assoc]
    exact ne_entry (by decide)
  case isFalse =>
    rw [List.take_append, List.take_of_length_le short.le, listing_append, String.append_assoc, String.append_assoc,
      String.append_assoc, ne_eq, String.append_right_inj]
    cases hnext : (rest.filter fun place => ¬ IsMasked expected actual place).take (20 - front.length) with
    | nil =>
      rw [listing, List.map_nil, String.join_nil, String.empty_append]
      exact ne_entry (by split <;> decide)
    | cons next others =>
      rw [listing_cons, String.append_assoc]
      intro same
      have behind : next ∈ rest := List.mem_of_mem_filter (List.mem_of_mem_take (hnext ▸ List.mem_cons_self))
      exact (later next behind).ne' (place_eq_of_entry same)

end Truthful

/-- The message about two different texts is truthful, unless exactly twenty lines differ or one of the lines to be
listed is masked: dots follow twenty lines even if these are all, and lines are compared as they are shown, so that a
line which reads like what is shown for a missing one is not told from it. -/
theorem mismatch?_truthful_iff {expected actual : String} (differ : expected ≠ actual) :
    ∃ message, mismatch? expected actual = some message ∧
      (IsTruthful (lineTexts expected) (lineTexts actual) message ↔
        (differing (lineTexts expected) (lineTexts actual)).length ≠ 20 ∧
        ∀ place ∈ (differing (lineTexts expected) (lineTexts actual)).take 20,
          ¬ IsMasked (lineTexts expected) (lineTexts actual) place) := by
  refine ⟨_, if_neg differ, ?_⟩
  generalize lineTexts expected = expected, lineTexts actual = actual
  rw [IsTruthful, String.append_assoc, String.append_right_inj]
  by_cases masked : ∃ place ∈ (differing expected actual).take 20, IsMasked expected actual place
  case pos =>
    obtain ⟨place, listed, masked⟩ := masked
    have same : expected ≠ actual := by
      intro same
      rw [differing_eq_nil_iff.mpr same] at listed
      exact absurd listed List.not_mem_nil
    rw [if_neg same]
    exact iff_of_false (describeDifferences_of_masked listed masked _) fun h => h.2 place listed masked
  case neg =>
    have unmasked : ∀ place ∈ (differing expected actual).take 20, ¬ IsMasked expected actual place :=
      fun place listed h => masked ⟨place, listed, h⟩
    rw [and_iff_left unmasked, describeDifferences_of_unmasked unmasked]
    by_cases same : expected = actual
    case pos =>
      rw [if_pos same, if_pos same, differing_eq_nil_iff.mpr same]
      decide
    case neg =>
      rw [if_neg same, if_neg same, String.append_right_inj]
      rcases Nat.lt_trichotomy (differing expected actual).length 20 with few | twenty | many
      · rw [if_neg few.not_ge, if_neg few.not_gt]
        exact iff_of_true rfl few.ne
      · rw [if_pos twenty.ge, if_neg twenty.not_gt]
        exact iff_of_false (by decide) (not_not.mpr twenty)
      · rw [if_pos many.le, if_pos many]
        exact iff_of_true rfl many.ne'

/-- A changed line and a line too few are told of; another end of a line is not. -/
theorem mismatch?_truthful_lines : "a\r\nb\nc" ≠ "a\nB" ∧
    ∃ message, mismatch? "a\r\nb\nc" "a\nB" = some message ∧
      IsTruthful (lineTexts "a\r\nb\nc") (lineTexts "a\nB") message := by
  have differ : "a\r\nb\nc" ≠ "a\nB" := by decide
  obtain ⟨message, told, truthful⟩ := mismatch?_truthful_iff differ
  exact ⟨differ, message, told, truthful.mpr (by decide)⟩

/-- A line that reads like what is shown for a missing one is not told from it: the ends of lines are blamed. -/
theorem mismatch?_missing :
    mismatch? "<missing>\n" "" = some "Content mismatch:\n  (line terminators differ)\n" ∧
      lineTexts "<missing>\n" ≠ lineTexts "" ∧
      ¬ IsTruthful (lineTexts "<missing>\n") (lineTexts "") "Content mismatch:\n  (line terminators differ)\n" := by
  have left : lineTexts "<missing>\n" = ["<missing>"] := by decide
  have right : lineTexts "" = [] := by decide
  have none : differences 1 ["<missing>"] [] = [] := by
    rw [differences, differences, lineDifference, if_pos (show "<missing>" = missingLine from rfl), List.nil_append]
  have first : (differing ["<missing>"] []).take 20 = [0] := by decide
  have told : "Content mismatch:\n  (line terminators differ)\n" =
      "Content mismatch:\n" ++ "  (line terminators differ)\n" := rfl
  rw [mismatch?, if_neg (by decide), left, right, none]
  refine ⟨rfl, by decide, ?_⟩
  rw [IsTruthful, if_neg (by decide), first, told, String.append_assoc, String.append_right_inj, listing_cons,
    String.append_assoc]
  exact ne_entry (by decide)

end Polyadic.Text
