import Polyadic.Text.Span

/-!
# Reading a text from front to back

A reader consumes a part of the text that is left, or fails. It knows how many bytes were consumed
before, so that what is read can be located.
-/

namespace Polyadic.Toml

open Text (Span Located)

/-- How far a text is read, in bytes, and what is left of it. -/
structure Cursor where
  offset : Nat
  rest : List Char

/-- Consumes text and answers what it says, or fails. -/
abbrev Reader := StateT Cursor Option

namespace Reader

/-- The character that may stand at the very start of a text and says nothing. -/
def byteOrderMark : Char := '\uFEFF'

/-- The start of a text. -/
def start (text : List Char) : Cursor :=
  match text with
  | [] => ⟨0, []⟩
  | c :: rest => if c = byteOrderMark then ⟨c.utf8Size, rest⟩ else ⟨0, c :: rest⟩

/-- The cursor behind the first `count` characters. -/
def advance (cursor : Cursor) (count : Nat) : Cursor :=
  ⟨cursor.offset + Text.byteLength (cursor.rest.take count), cursor.rest.drop count⟩

/-- What is left. -/
def remaining : Reader (List Char) :=
  return (← get).rest

/-- Consumes characters without looking at them. -/
def skip (count : Nat) : Reader Unit :=
  modify (advance · count)

/-- Consumes the characters up to the first that fails a test. -/
def takeWhile (p : Char → Bool) : Reader (List Char) := do
  let taken := (← remaining).takeWhile p
  skip taken.length
  return taken

/-- Consumes a text if it comes next, and answers whether it did. -/
def accept (text : List Char) : Reader Bool := do
  if text.isPrefixOf (← remaining) then
    skip text.length
    return true
  else return false

/-- Consumes a text that has to come next. -/
def expect (text : List Char) : Reader Unit := do
  guard (← accept text)

/-- Whether nothing is left. -/
def atEnd : Reader Bool :=
  return (← remaining).isEmpty

/-- Answers what a reader answers, and the stretch of text it consumed. -/
def located (read : Reader α) : Reader (Located α) := do
  let first := (← get).offset
  let item ← read
  let last := (← get).offset
  return ⟨⟨first, last - first⟩, item⟩

/-- Repeats a reader until it answers that there is no more, at most `count` times. -/
def repeatFor (read : Reader (Option α)) : Nat → Reader (List α)
  | 0 => failure
  | count + 1 => do
    match ← read with
    | none => return []
    | some item => return item :: (← repeatFor read count)

/-- Repeats a reader until it answers that there is no more. Every round but the last has to consume
something, so there are no more rounds than characters. -/
def collect (read : Reader (Option α)) : Reader (List α) := do
  repeatFor read ((← remaining).length + 1)

end Reader

end Polyadic.Toml
