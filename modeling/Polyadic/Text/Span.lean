import Polyadic.Text.Split

/-!
# Places in a text

A span is a stretch of a text, measured in the bytes of its UTF-8 form. Main statement: a part of a
text is what stands at its span (`slice?_append`).
-/

namespace Polyadic.Text

/-- A stretch of a text: the bytes before it and the bytes it takes. -/
structure Span where
  offset : Nat
  length : Nat
  deriving DecidableEq, Repr

/-- Something read from a text, and where it stands there. -/
structure Located (α : Type) where
  span : Span
  item : α
  deriving DecidableEq, Repr

/-- Skips bytes; nothing is left of a text that ends or has a character across the cut. -/
def dropBytes : Nat → List Char → Option (List Char)
  | 0, text => some text
  | _ + 1, [] => none
  | n + 1, c :: rest => if c.utf8Size ≤ n + 1 then dropBytes (n + 1 - c.utf8Size) rest else none

/-- The characters that take the first bytes of a text; none if the text is shorter or a character
lies across the end. -/
def takeBytes : Nat → List Char → Option (List Char)
  | 0, _ => some []
  | _ + 1, [] => none
  | n + 1, c :: rest =>
    if c.utf8Size ≤ n + 1 then (takeBytes (n + 1 - c.utf8Size) rest).map (c :: ·) else none

/-- The part of a text in a span; none if the span does not lie in the text or cuts a character. -/
def slice? (text : List Char) (span : Span) : Option (List Char) :=
  (dropBytes span.offset text).bind (takeBytes span.length)

/-- Past a whole character the bytes behind it are skipped. -/
theorem dropBytes_cons (c : Char) (n : Nat) (rest : List Char) :
    dropBytes (c.utf8Size + n) (c :: rest) = dropBytes n rest := by
  obtain ⟨size, hsize⟩ : ∃ size, c.utf8Size = size + 1 := Nat.exists_eq_add_one.mpr c.utf8Size_pos
  rw [hsize, Nat.add_right_comm, dropBytes, hsize, if_pos (by omega), Nat.add_right_comm, Nat.add_sub_cancel_left]

/-- A whole character is taken, and then the bytes behind it. -/
theorem takeBytes_cons (c : Char) (n : Nat) (rest : List Char) :
    takeBytes (c.utf8Size + n) (c :: rest) = (takeBytes n rest).map (c :: ·) := by
  obtain ⟨size, hsize⟩ : ∃ size, c.utf8Size = size + 1 := Nat.exists_eq_add_one.mpr c.utf8Size_pos
  rw [hsize, Nat.add_right_comm, takeBytes, hsize, if_pos (by omega), Nat.add_right_comm, Nat.add_sub_cancel_left]

theorem dropBytes_append (before rest : List Char) :
    dropBytes (byteLength before) (before ++ rest) = some rest := by
  induction before with
  | nil => simp [dropBytes, byteLength]
  | cons c before ih => rw [byteLength, List.cons_append, dropBytes_cons, ih]

theorem takeBytes_append (part rest : List Char) :
    takeBytes (byteLength part) (part ++ rest) = some part := by
  induction part with
  | nil => simp [takeBytes, byteLength]
  | cons c part ih =>
    rw [byteLength, List.cons_append, takeBytes_cons, ih]
    rfl

/-- A part of a text is what stands at its span. -/
theorem slice?_append (before part rest : List Char) :
    slice? (before ++ part ++ rest) ⟨byteLength before, byteLength part⟩ = some part := by
  rw [slice?, List.append_assoc, dropBytes_append, Option.bind_some, takeBytes_append]

end Polyadic.Text
