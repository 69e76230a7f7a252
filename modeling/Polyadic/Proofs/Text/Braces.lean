import Polyadic.Text.Braces
import Mathlib

/-!
# Balanced texts

Counting through one text and then through another is counting through both (`openBraces_append`). The count goes
through when no beginning of the text closes more braces than are open (`openBraces_eq_some_iff`), so what a text
makes of its braces does not depend on those that are open before it (`openBraces_add`), and a text is balanced
when it leaves every number of open braces as it is (`hasBalancedBraces_iff`). In numbers of braces that is one of
which no beginning closes more than it opens, and which closes as much as it opens (`hasBalancedBraces_iff_counts`).
-/

namespace Polyadic.Text

section Count

variable {c : Char} {depth : Nat} {text : List Char}

lemma openBraces_open (depth : Nat) (text : List Char) :
    openBraces depth ('\x7b' :: text) = openBraces (depth + 1) text := by
  rw [openBraces.eq_def]
  exact if_pos rfl

lemma openBraces_close (depth : Nat) (text : List Char) :
    openBraces (depth + 1) ('\x7d' :: text) = openBraces depth text := by
  rw [openBraces, if_neg (by decide), if_pos rfl]

lemma openBraces_unopened (text : List Char) : openBraces 0 ('\x7d' :: text) = none := by
  rw [openBraces, if_neg (by decide), if_pos rfl]

lemma openBraces_other (h : c ≠ '\x7b') (h' : c ≠ '\x7d') (depth : Nat) (text : List Char) :
    openBraces depth (c :: text) = openBraces depth text := by
  rw [openBraces.eq_def]
  exact (if_neg h).trans (if_neg h')

lemma openBraces_append (depth : Nat) (text rest : List Char) :
    openBraces depth (text ++ rest) = (openBraces depth text).bind (openBraces · rest) := by
  induction text generalizing depth with
  | nil => rfl
  | cons c text ih =>
    rw [List.cons_append]
    by_cases opens : c = '\x7b'
    · rw [opens, openBraces_open, openBraces_open, ih]
    · by_cases closes : c = '\x7d'
      · cases depth with
        | zero =>
          rw [closes, openBraces_unopened, openBraces_unopened]
          rfl
        | succ depth => rw [closes, openBraces_close, openBraces_close, ih]
      · rw [openBraces_other opens closes, openBraces_other opens closes, ih]

lemma forall_prefix_cons {P : List Char → Prop} :
    (∀ front, front <+: c :: text → P front) ↔ P [] ∧ ∀ front, front <+: text → P (c :: front) := by
  constructor
  · exact fun h => ⟨h [] List.nil_prefix, fun front before => h _ (List.cons_prefix_cons.mpr ⟨rfl, before⟩)⟩
  · rintro ⟨empty, longer⟩ front before
    obtain rfl | ⟨rest, rfl, shorter⟩ := List.prefix_cons_iff.mp before
    · exact empty
    · exact longer rest shorter

/-- The count through a text, in numbers of braces: no beginning of the text may close more than is open. -/
lemma openBraces_eq_some_iff {left : Nat} :
    openBraces depth text = some left ↔
      (∀ front, front <+: text → front.count '\x7d' ≤ depth + front.count '\x7b') ∧
        left + text.count '\x7d' = depth + text.count '\x7b' := by
  induction text generalizing depth with
  | nil =>
    have nothing : ∀ front : List Char, front <+: [] → front.count '\x7d' ≤ depth + front.count '\x7b' := by
      rintro front before
      rw [List.prefix_nil.mp before]
      exact Nat.zero_le _
    rw [openBraces, Option.some_inj, and_iff_right nothing]
    exact eq_comm
  | cons c text ih =>
    rw [forall_prefix_cons, List.count_nil, List.count_nil, and_iff_right (Nat.zero_le _)]
    by_cases opens : c = '\x7b'
    · have other : '\x7b' ≠ '\x7d' := by decide
      simp only [opens, openBraces_open, ih, List.count_cons_self, List.count_cons_of_ne other]
      simp only [Nat.add_assoc, Nat.add_comm 1]
    · by_cases closes : c = '\x7d'
      · have other : '\x7d' ≠ '\x7b' := by decide
        simp only [closes, List.count_cons_self, List.count_cons_of_ne other]
        cases depth with
        | zero =>
          rw [openBraces_unopened]
          -- The beginning that ends with the brace closes one that was not opened.
          refine ⟨nofun, fun h => absurd (h.1 [] List.nil_prefix) (by decide)⟩
        | succ depth =>
          rw [openBraces_close, ih]
          simp only [Nat.add_right_comm depth 1, Nat.add_le_add_iff_right, ← Nat.add_assoc,
            Nat.add_right_cancel_iff]
      · simp only [openBraces_other opens closes, ih, List.count_cons_of_ne opens, List.count_cons_of_ne closes]

lemma openBraces_add {left : Nat} (h : openBraces depth text = some left) (more : Nat) :
    openBraces (depth + more) text = some (left + more) := by
  rw [openBraces_eq_some_iff] at h ⊢
  obtain ⟨opened, balance⟩ := h
  refine ⟨fun front before => ?_, by omega⟩
  have enough := opened front before
  omega

end Count

/-- The text closes what it opens and nothing else. -/
def Balanced (text : List Char) : Prop :=
  ∀ depth, openBraces depth text = some depth

namespace Balanced

variable {text text' : List Char}

lemma of_unbraced (h : ∀ c ∈ text, c ≠ '\x7b' ∧ c ≠ '\x7d') : Balanced text := by
  intro depth
  induction text with
  | nil => rfl
  | cons c text ih =>
    obtain ⟨⟨opens, closes⟩, h⟩ := List.forall_mem_cons.mp h
    rw [openBraces_other opens closes, ih h]

lemma append (h : Balanced text) (h' : Balanced text') : Balanced (text ++ text') := by
  intro depth
  rw [openBraces_append, h depth]
  exact h' depth

/-- A balanced text between what opens a brace and what closes it. -/
lemma between {opening closing : List Char} (h : Balanced text)
    (opens : ∀ depth, openBraces depth opening = some (depth + 1))
    (closes : ∀ depth, openBraces (depth + 1) closing = some depth) :
    Balanced (opening ++ text ++ closing) := by
  intro depth
  rw [openBraces_append, openBraces_append, opens depth, Option.bind_some, h (depth + 1)]
  exact closes depth

end Balanced

theorem hasBalancedBraces_iff {text : String} : hasBalancedBraces text = true ↔ Balanced text.toList := by
  rw [hasBalancedBraces, beq_iff_eq]
  constructor
  · intro h depth
    have shifted := openBraces_add h depth
    rwa [Nat.zero_add] at shifted
  · exact fun h => h 0

theorem hasBalancedBraces_iff_counts {text : String} :
    hasBalancedBraces text = true ↔
      (∀ front, front <+: text.toList → front.count '\x7d' ≤ front.count '\x7b') ∧
        text.toList.count '\x7d' = text.toList.count '\x7b' := by
  rw [hasBalancedBraces, beq_iff_eq, openBraces_eq_some_iff]
  simp only [Nat.zero_add]

end Polyadic.Text
