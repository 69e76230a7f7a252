import Polyadic.Text.Span
import Mathlib

/-!
# Lines of a text

Where lines start and end. What stands behind the last line feed of a text is its unfinished line
(`lastLine`), and a text is cut into lines wherever one that has none goes on (`linesWithEnds_append`). Lists of
lines are recognised by their shape (`AreLines`), and every list of this shape is that of a text
(`linesWithEnds_flatten`).
-/

namespace Polyadic.Text

/-! ## Bytes -/

lemma byteLength_eq_zero {text : List Char} : byteLength text = 0 ↔ text = [] := by
  cases text with
  | nil => exact iff_of_true rfl rfl
  | cons c rest =>
    have := c.utf8Size_pos
    refine iff_of_false ?_ (List.cons_ne_nil c rest)
    rw [byteLength]
    omega

/-! ## Unfinished lines -/

/-- What stands behind the last line feed. -/
def lastLine (text : List Char) : List Char :=
  text.rtakeWhile (· != '\n')

section LastLine

variable {front back : List Char}

lemma lastLine_of_not_mem (h : '\n' ∉ back) : lastLine back = back := by
  rw [lastLine, List.rtakeWhile_eq_self_iff]
  intro c hc
  rw [bne_iff_ne]
  rintro rfl
  exact h hc

lemma lastLine_append_of_mem (h : '\n' ∈ back) : lastLine (front ++ back) = lastLine back := by
  have stops : (back.reverse.takeWhile (· != '\n')).length ≠ back.reverse.length := by
    intro whole
    have all := (List.takeWhile_prefix _).eq_of_length whole
    rw [List.takeWhile_eq_self_iff] at all
    exact absurd (all '\n' (List.mem_reverse.mpr h)) (by decide)
  rw [lastLine, lastLine, List.rtakeWhile, List.rtakeWhile, List.reverse_append, List.takeWhile_append, if_neg stops]

lemma lastLine_append_of_not_mem (h : '\n' ∉ back) : lastLine (front ++ back) = lastLine front ++ back := by
  have all : ∀ c ∈ back.reverse, (c != '\n') = true := by
    intro c hc
    rw [bne_iff_ne]
    rintro rfl
    exact h (List.mem_reverse.mp hc)
  rw [lastLine, lastLine, List.rtakeWhile, List.rtakeWhile, List.reverse_append, List.takeWhile_append_of_pos all,
    List.reverse_append, List.reverse_reverse]

lemma not_mem_lastLine (text : List Char) : '\n' ∉ lastLine text := by
  intro h
  exact absurd (List.mem_rtakeWhile_imp h) (by decide)

/-- A text is finished lines and an unfinished one. -/
lemma exists_append_lastLine (text : List Char) :
    ∃ earlier, text = earlier ++ lastLine text ∧ lastLine earlier = [] := by
  refine ⟨text.rdropWhile (· != '\n'), ?_, ?_⟩
  · rw [lastLine, List.rdropWhile, List.rtakeWhile, ← List.reverse_append, List.takeWhile_append_dropWhile,
      List.reverse_reverse]
  · rw [lastLine, List.rtakeWhile_eq_nil_iff]
    intro h
    exact List.rdropWhile_last_not _ _ h

end LastLine

/-! ## Lists of lines -/

/-- Every line ends in its only line feed, but for the last one, which may have none. -/
inductive AreLines : List (List Char) → Prop where
  | nil : AreLines []
  | last {line} : line ≠ [] → '\n' ∉ line → AreLines [line]
  | cons {line lines} : '\n' ∉ line → AreLines lines → AreLines ((line ++ ['\n']) :: lines)

lemma areLines_linesWithEnds (text : List Char) : AreLines (linesWithEnds text) := by
  induction text with
  | nil => exact .nil
  | cons c rest ih =>
    rw [linesWithEnds]
    split
    · rename_i feed
      subst feed
      exact .cons List.not_mem_nil ih
    · rename_i other
      have unlike {line : List Char} (h : '\n' ∉ line) : '\n' ∉ c :: line := by
        rw [List.mem_cons, not_or]
        exact ⟨Ne.symm other, h⟩
      generalize linesWithEnds rest = lines at ih
      cases ih with
      | nil => exact .last (List.cons_ne_nil c []) (unlike List.not_mem_nil)
      | last _ plain => exact .last (List.cons_ne_nil c _) (unlike plain)
      | cons plain lines => exact .cons (unlike plain) lines

lemma linesWithEnds_of_not_mem {line : List Char} (nonempty : line ≠ []) (h : '\n' ∉ line) :
    linesWithEnds line = [line] := by
  induction line with
  | nil => exact absurd rfl nonempty
  | cons c rest ih =>
    rw [List.mem_cons, not_or] at h
    rw [linesWithEnds, if_neg (Ne.symm h.1)]
    cases rest with
    | nil => rfl
    | cons d rest => rw [ih (List.cons_ne_nil d rest) h.2]

lemma linesWithEnds_cons {line : List Char} (h : '\n' ∉ line) (rest : List Char) :
    linesWithEnds (line ++ '\n' :: rest) = (line ++ ['\n']) :: linesWithEnds rest := by
  induction line with
  | nil => rw [List.nil_append, linesWithEnds, if_pos rfl, List.nil_append]
  | cons c line ih =>
    rw [List.mem_cons, not_or] at h
    rw [List.cons_append, linesWithEnds, if_neg (Ne.symm h.1), ih h.2]
    rfl

/-- A list that has the shape of lines is the lines of a text. -/
theorem linesWithEnds_flatten {lines : List (List Char)} (h : AreLines lines) :
    linesWithEnds lines.flatten = lines := by
  induction h with
  | nil => rfl
  | last nonempty plain =>
    rw [List.flatten_singleton]
    exact linesWithEnds_of_not_mem nonempty plain
  | cons plain _ ih =>
    rw [List.flatten_cons, List.append_assoc, List.singleton_append, linesWithEnds_cons plain, ih]

/-- Where a line starts, the text can be cut. -/
theorem linesWithEnds_append {front : List Char} (h : lastLine front = []) (back : List Char) :
    linesWithEnds (front ++ back) = linesWithEnds front ++ linesWithEnds back := by
  have shape := areLines_linesWithEnds front
  rw [← flatten_linesWithEnds front] at h ⊢
  generalize linesWithEnds front = lines at shape h
  rw [linesWithEnds_flatten shape]
  induction shape with
  | nil => rfl
  | last nonempty plain =>
    rw [List.flatten_singleton, lastLine_of_not_mem plain] at h
    exact absurd h nonempty
  | @cons line lines plain shape ih =>
    have finished : lastLine lines.flatten = [] := by
      by_cases feed : '\n' ∈ lines.flatten
      · rw [List.flatten_cons, lastLine_append_of_mem feed] at h
        exact h
      · rw [List.flatten_cons, lastLine_append_of_not_mem feed] at h
        rw [(List.append_eq_nil_iff.mp h).2]
        rfl
    rw [List.flatten_cons, List.append_assoc, List.append_assoc, List.singleton_append, linesWithEnds_cons plain,
      ih finished, List.cons_append]

/-- What stands on a line of its own stands at the start of one of the lines. -/
lemma exists_line {earlier start : List Char} (finished : lastLine earlier = []) (some : start ≠ [])
    (plain : '\n' ∉ start) (rest : List Char) : ∃ back, start ++ back ∈ linesWithEnds (earlier ++ (start ++ rest)) := by
  rw [linesWithEnds_append finished]
  by_cases feed : '\n' ∈ rest
  · obtain ⟨back, later, rfl, plain'⟩ := List.eq_append_cons_of_mem feed
    refine ⟨back ++ ['\n'], List.mem_append_right _ ?_⟩
    rw [← List.append_assoc start back ('\n' :: later),
      linesWithEnds_cons (List.not_mem_append plain plain'), List.append_assoc]
    exact List.mem_cons_self
  · refine ⟨rest, List.mem_append_right _ ?_⟩
    rw [linesWithEnds_of_not_mem (List.append_ne_nil_of_left_ne_nil some rest) (List.not_mem_append plain feed)]
    exact List.mem_singleton_self _

end Polyadic.Text
