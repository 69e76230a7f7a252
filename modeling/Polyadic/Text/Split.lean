/-!
# Splitting and measuring text

Texts are cut at the characters that satisfy a test, or into lines, and measured in the bytes of
their UTF-8 form. Main statements: the pieces are the text without what separates them (`flatten_split`),
splitting and joining undo each other (`join_split`, `split_join`), and the lines of a text joined are the text
(`flatten_linesWithEnds`).
-/

namespace Polyadic.Text

/-- The pieces between the characters that satisfy `p`; there is always at least one. -/
def split (p : Char → Bool) : List Char → List (List Char)
  | [] => [[]]
  | c :: rest =>
    if p c then [] :: split p rest
    else
      match split p rest with
      | [] => [[c]]
      | piece :: pieces => (c :: piece) :: pieces

/-- The pieces with a separator between each two. -/
def join (separator : Char) : List (List Char) → List Char
  | [] => []
  | [piece] => piece
  | piece :: pieces => piece ++ separator :: join separator pieces

theorem split_ne_nil (p : Char → Bool) (text : List Char) : split p text ≠ [] := by
  cases text with
  | nil => simp [split]
  | cons c rest =>
    simp only [split]
    split
    · simp
    · split <;> simp

theorem split_cons_of_pos {p : Char → Bool} {c : Char} (h : p c = true) (rest : List Char) :
    split p (c :: rest) = [] :: split p rest := by
  simp only [split, h, if_true]

theorem split_cons_of_neg {p : Char → Bool} {c : Char} (h : p c = false) (rest : List Char) :
    ∃ piece pieces, split p rest = piece :: pieces ∧ split p (c :: rest) = (c :: piece) :: pieces := by
  cases hrest : split p rest with
  | nil => exact absurd hrest (split_ne_nil p rest)
  | cons piece pieces =>
    exact ⟨piece, pieces, rfl, by simp only [split, h, hrest, Bool.false_eq_true, if_false]⟩

/-- The pieces are made of the characters of the text that do not separate them. -/
theorem mem_of_mem_split {p : Char → Bool} {text piece : List Char} (h : piece ∈ split p text)
    {c : Char} (hc : c ∈ piece) : c ∈ text ∧ p c = false := by
  induction text generalizing piece with
  | nil =>
    simp only [split, List.mem_singleton] at h
    subst h
    cases hc
  | cons d rest ih =>
    cases hd : p d with
    | true =>
      rw [split_cons_of_pos hd] at h
      cases h with
      | head => cases hc
      | tail _ h => exact ⟨.tail _ (ih h hc).1, (ih h hc).2⟩
    | false =>
      obtain ⟨first, others, hrest, hsplit⟩ := split_cons_of_neg hd rest
      rw [hsplit] at h
      cases h with
      | head =>
        cases hc with
        | head => exact ⟨.head _, hd⟩
        | tail _ hc =>
          have later := ih (hrest ▸ List.mem_cons_self) hc
          exact ⟨.tail _ later.1, later.2⟩
      | tail _ h =>
        have later := ih (hrest ▸ List.mem_cons_of_mem first h) hc
        exact ⟨.tail _ later.1, later.2⟩

/-- Every character of the text separates pieces or is in one. -/
theorem exists_mem_split (p : Char → Bool) {text : List Char} {c : Char} (h : c ∈ text) :
    p c = true ∨ ∃ piece ∈ split p text, c ∈ piece := by
  induction text with
  | nil => cases h
  | cons d rest ih =>
    cases hd : p d with
    | true =>
      rw [split_cons_of_pos hd]
      cases h with
      | head => exact .inl hd
      | tail _ h =>
        obtain hc | ⟨piece, hpiece, hc⟩ := ih h
        · exact .inl hc
        · exact .inr ⟨piece, List.mem_cons_of_mem [] hpiece, hc⟩
    | false =>
      obtain ⟨first, others, hrest, hsplit⟩ := split_cons_of_neg hd rest
      rw [hsplit]
      cases h with
      | head => exact .inr ⟨c :: first, List.mem_cons_self, List.mem_cons_self⟩
      | tail _ h =>
        obtain hc | ⟨piece, hpiece, hc⟩ := ih h
        · exact .inl hc
        · rw [hrest] at hpiece
          cases hpiece with
          | head => exact .inr ⟨d :: first, List.mem_cons_self, List.mem_cons_of_mem d hc⟩
          | tail _ hpiece => exact .inr ⟨piece, List.mem_cons_of_mem _ hpiece, hc⟩

/-- Joining the pieces of a text with the character it was split at gives it back. -/
theorem join_split (separator : Char) (text : List Char) :
    join separator (split (· == separator) text) = text := by
  induction text with
  | nil => rfl
  | cons c rest ih =>
    simp only [split]
    cases h : split (· == separator) rest with
    | nil => exact absurd h (split_ne_nil _ _)
    | cons piece pieces =>
      rw [h] at ih
      by_cases hc : c = separator
      · subst hc
        simp [join, ih]
      · have hb : (c == separator) = false := by simpa using hc
        cases pieces with
        | nil => simp_all [join]
        | cons q qs => simp_all [join]

/-- The pieces of a text, one after the other, are the text without what separates them. -/
theorem flatten_split (p : Char → Bool) (text : List Char) : (split p text).flatten = text.filter (!p ·) := by
  induction text with
  | nil => rfl
  | cons c rest ih =>
    cases hc : p c with
    | true => rw [split_cons_of_pos hc, List.filter_cons_of_neg (by simp [hc]), List.flatten_cons, ih, List.nil_append]
    | false =>
      obtain ⟨piece, pieces, hrest, hsplit⟩ := split_cons_of_neg hc rest
      rw [hrest] at ih
      rw [hsplit, List.filter_cons_of_pos (by simp [hc]), ← ih, List.flatten_cons, List.flatten_cons, List.cons_append]

theorem split_of_forall {p : Char → Bool} {text : List Char} (h : ∀ c ∈ text, p c = false) :
    split p text = [text] := by
  induction text with
  | nil => rfl
  | cons c rest ih =>
    obtain ⟨hc, hrest⟩ := List.forall_mem_cons.mp h
    obtain ⟨piece, pieces, hpieces, hsplit⟩ := split_cons_of_neg hc rest
    rw [ih hrest] at hpieces
    cases hpieces
    exact hsplit

/-- A separator between two texts separates their pieces. -/
theorem split_append {p : Char → Bool} {separator : Char} (h : p separator = true)
    (first second : List Char) : split p (first ++ separator :: second) = split p first ++ split p second := by
  induction first with
  | nil => exact split_cons_of_pos h second
  | cons c first ih =>
    cases hc : p c with
    | true => rw [List.cons_append, split_cons_of_pos hc, split_cons_of_pos hc, ih, List.cons_append]
    | false =>
      obtain ⟨piece, pieces, hpieces, hsplit⟩ := split_cons_of_neg hc first
      obtain ⟨piece', pieces', hpieces', hsplit'⟩ := split_cons_of_neg hc (first ++ separator :: second)
      rw [ih, hpieces, List.cons_append] at hpieces'
      cases hpieces'
      rw [List.cons_append, hsplit', hsplit, List.cons_append]

theorem split_of_not_mem {separator : Char} {text : List Char} (h : separator ∉ text) :
    split (· == separator) text = [text] :=
  split_of_forall fun _ hc => beq_eq_false_iff_ne.mpr fun same => h (same ▸ hc)

/-- Splitting what was joined gives the pieces back, if none of them has a separator. -/
theorem split_join {separator : Char} {pieces : List (List Char)} (nonempty : pieces ≠ [])
    (h : ∀ piece ∈ pieces, separator ∉ piece) :
    split (· == separator) (join separator pieces) = pieces := by
  induction pieces with
  | nil => exact absurd rfl nonempty
  | cons piece pieces ih =>
    obtain ⟨hpiece, hpieces⟩ := List.forall_mem_cons.mp h
    cases pieces with
    | nil => exact split_of_not_mem hpiece
    | cons next pieces =>
      have apart := split_append (p := (· == separator)) (beq_self_eq_true separator) piece
      rw [join, apart, split_of_not_mem hpiece, ih (List.cons_ne_nil next pieces) hpieces,
        List.singleton_append]
      exact nofun

/-- Number of bytes of the UTF-8 form. -/
def byteLength : List Char → Nat
  | [] => 0
  | c :: rest => c.utf8Size + byteLength rest

@[simp] theorem byteLength_append (first second : List Char) :
    byteLength (first ++ second) = byteLength first + byteLength second := by
  induction first with
  | nil => simp [byteLength]
  | cons c first ih => simp [byteLength, ih, Nat.add_assoc]

/-- The lines of a text, each with the line feed that ends it. -/
def linesWithEnds : List Char → List (List Char)
  | [] => []
  | c :: rest =>
    if c = '\n' then [c] :: linesWithEnds rest
    else
      match linesWithEnds rest with
      | [] => [[c]]
      | line :: lines => (c :: line) :: lines

/-- The lines of a text, one after the other, are the text. -/
theorem flatten_linesWithEnds (text : List Char) : (linesWithEnds text).flatten = text := by
  induction text with
  | nil => rfl
  | cons c rest ih =>
    simp only [linesWithEnds]
    split
    · simp [ih]
    · cases h : linesWithEnds rest with
      | nil =>
        rw [h] at ih
        simp_all
      | cons line lines =>
        rw [h] at ih
        simp_all

/-- A line without its end, which is a line feed or a carriage return and a line feed. -/
def dropLineEnd (line : List Char) : List Char :=
  match line.reverse with
  | '\n' :: '\r' :: front => front.reverse
  | '\n' :: front => front.reverse
  | _ => line

/-- The lines of a text without their ends. -/
def lines (text : List Char) : List (List Char) :=
  (linesWithEnds text).map dropLineEnd

end Polyadic.Text
