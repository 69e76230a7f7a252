import Polyadic.Template.Resolve
import Mathlib

/-!
# Well-delimited texts

A text is well-delimited when it is put together from pieces: literals, which have no dollar sign, and
tokens, which are names between two dollar signs. A template may have one more dollar sign behind that
pairs with nothing (`IsTail`). `pieces` takes a well-delimited text apart again (`text_pieces`).

The other statements are what the search for placeholders finds in such a text: its first token
(`firstPlaceholder?_token`), if there is one (`firstPlaceholder?_tail`), and as many placeholders as it
has tokens (`placeholderCount_text`).
-/

namespace Polyadic.Template

/-- A piece of a well-delimited text. -/
inductive Piece where
  | literal (text : List Char) (plain : '$' ∉ text)
  | token (name : String) (nonempty : name.toList ≠ []) (plain : '$' ∉ name.toList)

namespace Piece

/-- What stands in the text for the piece. -/
def text : Piece → List Char
  | literal text _ => text
  | token name _ _ => '$' :: (name.toList ++ ['$'])

lemma text_token_append {name : String} (nonempty : name.toList ≠ []) (plain : '$' ∉ name.toList)
    (rest tail : List Char) : (token name nonempty plain).text ++ rest ++ tail =
      '$' :: (name.toList ++ '$' :: (rest ++ tail)) := by
  simp only [text, List.cons_append, List.append_assoc, List.nil_append]

/-- The names of the tokens among pieces. -/
def names : List Piece → List String
  | [] => []
  | literal _ _ :: rest => names rest
  | token name _ _ :: rest => name :: names rest

end Piece

/-- The text put together from pieces. -/
def text (ps : List Piece) : List Char :=
  ps.flatMap Piece.text

/-- The text is put together from literals and tokens. -/
def WellDelimited (chars : List Char) : Prop :=
  ∃ ps, text ps = chars

/-- Nothing, or one dollar sign that pairs with none behind it. -/
def IsTail (chars : List Char) : Prop :=
  chars = [] ∨ ∃ free, chars = '$' :: free ∧ '$' ∉ free

lemma text_cons (piece : Piece) (ps : List Piece) : text (piece :: ps) = piece.text ++ text ps :=
  List.flatMap_cons

/-! ## Names between dollar signs -/

lemma nameBehind?_append {name after : List Char} (nonempty : name ≠ []) (plain : '$' ∉ name) :
    nameBehind? (name ++ '$' :: after) = some (name, after) := by
  have all : ∀ c ∈ name, decide (c ≠ '$') = true := by
    intro c hc
    exact decide_eq_true fun h => plain (h ▸ hc)
  unfold nameBehind?
  rw [List.takeWhile_append_of_pos all, List.dropWhile_append_of_pos all]
  cases name with
  | nil => exact absurd rfl nonempty
  | cons c name => simp

lemma nameBehind?_plain {chars : List Char} (plain : '$' ∉ chars) : nameBehind? chars = none := by
  have all : ∀ c ∈ chars, decide (c ≠ '$') = true := by
    intro c hc
    exact decide_eq_true fun h => plain (h ▸ hc)
  have rest : chars.dropWhile (fun c => decide (c ≠ '$')) = [] := List.dropWhile_eq_nil_iff.mpr all
  unfold nameBehind?
  rw [rest]
  split
  · rename_i hdrop
    cases hdrop
  · rfl

lemma name_of_nameBehind? {chars name after : List Char}
    (h : nameBehind? chars = some (name, after)) : name ≠ [] ∧ '$' ∉ name := by
  unfold nameBehind? at h
  split at h
  · rename_i c name' d after' htake hdrop
    cases h
    refine ⟨List.cons_ne_nil c name', fun hmem => ?_⟩
    rw [← htake] at hmem
    have := List.mem_takeWhile_imp hmem
    simp at this
  · cases h

/-! ## Taking a text apart -/

/-- The pieces of a text, up to a dollar sign that pairs with none. -/
def pieces : List Char → List Piece
  | [] => []
  | c :: rest =>
    if hc : c = '$' then
      match hn : nameBehind? rest with
      | none => []
      | some (name, after) =>
        have valid := name_of_nameBehind? hn
        .token (String.ofList name) (by simpa using valid.1) (by simpa using valid.2) :: pieces after
    else
      .literal [c] (by simpa using Ne.symm hc) :: pieces rest
termination_by chars => chars.length
decreasing_by
  · rw [eq_of_nameBehind? hn]
    simp only [List.length_cons, List.length_append]
    omega
  · simp

lemma pieces_cons {c : Char} (h : '$' ∉ [c]) (rest : List Char) :
    pieces (c :: rest) = .literal [c] h :: pieces rest := by
  have other : ¬ c = '$' := fun e => h (List.mem_singleton.mpr e.symm)
  rw [pieces, dif_neg other]

lemma pieces_token {name : String} (nonempty : name.toList ≠ []) (plain : '$' ∉ name.toList)
    (rest : List Char) :
    pieces ('$' :: (name.toList ++ '$' :: rest)) = .token name nonempty plain :: pieces rest := by
  have found : nameBehind? (name.toList ++ '$' :: rest) = some (name.toList, rest) :=
    nameBehind?_append nonempty plain
  rw [pieces, dif_pos rfl]
  split
  · rename_i hn
    cases found.symm.trans hn
  · rename_i hn
    cases found.symm.trans hn
    simp only [String.ofList_toList]

lemma text_pieces_append {plain rest : List Char} (h : '$' ∉ plain) :
    text (pieces (plain ++ rest)) = plain ++ text (pieces rest) := by
  induction plain with
  | nil => rfl
  | cons c plain ih =>
    obtain ⟨hc, hplain⟩ := not_or.mp (mt List.mem_cons.mpr h)
    rw [List.cons_append, pieces_cons (mt List.mem_singleton.mp hc), text_cons, ih hplain]
    rfl

/-- A well-delimited text is the text of its pieces. -/
theorem text_pieces {chars : List Char} (h : WellDelimited chars) : text (pieces chars) = chars := by
  obtain ⟨ps, rfl⟩ := h
  induction ps with
  | nil => simp only [text, List.flatMap_nil, pieces]
  | cons piece ps ih =>
    cases piece with
    | literal chars plain => rw [text_cons, Piece.text, text_pieces_append plain, ih]
    | token name nonempty plain =>
      rw [text_cons, Piece.text, List.cons_append, List.append_assoc, List.singleton_append,
        pieces_token nonempty plain, text_cons, Piece.text, ih, List.cons_append, List.append_assoc,
        List.singleton_append]

lemma wellDelimited_iff {chars : List Char} : WellDelimited chars ↔ text (pieces chars) = chars :=
  ⟨text_pieces, fun h => ⟨pieces chars, h⟩⟩

/-! ## The search for placeholders -/

/-- Nothing is found in front of the first dollar sign. -/
lemma firstPlaceholder?_append {plain rest : List Char} (h : '$' ∉ plain) :
    firstPlaceholder? (plain ++ rest) =
      (firstPlaceholder? rest).map fun p => { p with before := plain ++ p.before } := by
  induction plain with
  | nil =>
    rw [List.nil_append]
    cases firstPlaceholder? rest <;> rfl
  | cons c plain ih =>
    obtain ⟨hc, hplain⟩ := not_or.mp (mt List.mem_cons.mpr h)
    rw [List.cons_append, firstPlaceholder?, if_neg (Ne.symm hc), ih hplain, Option.map_map]
    rfl

lemma firstPlaceholder?_plain {plain : List Char} (h : '$' ∉ plain) :
    firstPlaceholder? plain = none := by
  rw [← List.append_nil plain, firstPlaceholder?_append h]
  rfl

lemma firstPlaceholder?_token {plain name after : List Char} (h : '$' ∉ plain)
    (nonempty : name ≠ []) (hname : '$' ∉ name) :
    firstPlaceholder? (plain ++ '$' :: (name ++ '$' :: after)) = some ⟨plain, name, after⟩ := by
  rw [firstPlaceholder?_append h, firstPlaceholder?, if_pos rfl, nameBehind?_append nonempty hname]
  show some (Placeholder.mk (plain ++ []) name after) = _
  rw [List.append_nil]

lemma firstPlaceholder?_tail {plain tail : List Char} (h : '$' ∉ plain) (htail : IsTail tail) :
    firstPlaceholder? (plain ++ tail) = none := by
  rw [firstPlaceholder?_append h]
  obtain rfl | ⟨free, rfl, hfree⟩ := htail
  · rfl
  · rw [firstPlaceholder?, if_pos rfl, nameBehind?_plain hfree, firstPlaceholder?_plain hfree]
    rfl

lemma placeholderCount_of_none {chars : List Char} (h : firstPlaceholder? chars = none) :
    placeholderCount chars = 0 := by
  rw [placeholderCount]
  split
  · rfl
  · rename_i hp
    cases h.symm.trans hp

lemma placeholderCount_of_some {chars : List Char} {p : Placeholder}
    (h : firstPlaceholder? chars = some p) :
    placeholderCount chars = placeholderCount p.after + 1 := by
  rw [placeholderCount]
  split
  · rename_i hp
    cases h.symm.trans hp
  · rename_i hp
    cases h.symm.trans hp
    rfl

/-- As many placeholders are counted as there are tokens. -/
theorem placeholderCount_text {tail : List Char} (htail : IsTail tail) (ps : List Piece)
    {plain : List Char} (h : '$' ∉ plain) :
    placeholderCount (plain ++ (text ps ++ tail)) = (Piece.names ps).length := by
  induction ps generalizing plain with
  | nil => exact placeholderCount_of_none (firstPlaceholder?_tail h htail)
  | cons piece ps ih =>
    cases piece with
    | literal chars hchars =>
      have both : '$' ∉ plain ++ chars := by simp [h, hchars]
      rw [text_cons, Piece.text, List.append_assoc, ← List.append_assoc, ih both]
      rfl
    | token name nonempty hname =>
      have rest : placeholderCount (text ps ++ tail) = _ := @ih [] List.not_mem_nil
      rw [text_cons, Piece.text_token_append, placeholderCount_of_some
        (firstPlaceholder?_token h nonempty hname), rest]
      rfl

lemma names_le_budget {tail : List Char} (htail : IsTail tail) (ps : List Piece) :
    (Piece.names ps).length ≤ budget (text ps ++ tail) := by
  have counted : placeholderCount (text ps ++ tail) = _ :=
    placeholderCount_text htail ps List.not_mem_nil
  unfold budget
  rw [counted]
  exact Nat.le_add_right _ _

end Polyadic.Template
