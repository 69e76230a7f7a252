import Polyadic.Decimal.Basic
import Polyadic.Toml.Reader

/-!
# Quoted texts

A text stands between one or three quotes of either kind. Between double quotes a backslash starts an
escape; between single quotes everything is meant as it stands. Three quotes may hold line breaks.
-/

namespace Polyadic.Toml

/-- A way to quote a text. -/
structure Quotation where
  quote : Char
  /-- Whether there are three quotes on each side. -/
  tripled : Bool

namespace Quotation

/-- Whether a backslash starts an escape. -/
def escapes (quotation : Quotation) : Bool :=
  quotation.quote == '"'

/-- The quotes on each side. -/
def marks (quotation : Quotation) : List Char :=
  List.replicate (if quotation.tripled then 3 else 1) quotation.quote

/-- When the closing quotes come next: what of the quotes still belongs to the text. In front of three
closing quotes there may be up to two more. -/
def closing? (quotation : Quotation) (rest : List Char) : Option (List Char) :=
  if quotation.marks.isPrefixOf rest then
    if quotation.tripled then
      some (((rest.drop 3).takeWhile (· == quotation.quote)).take 2)
    else some []
  else none

/-- What stands before the closing quotes, with its escapes as written. -/
def body? (quotation : Quotation) : List Char → Option (List Char)
  | [] => none
  | c :: rest =>
    match quotation.closing? (c :: rest) with
    | some extra => some extra
    | none =>
      if quotation.escapes && c == '\\' then
        match rest with
        | [] => none
        | d :: rest => (body? quotation rest).map (c :: d :: ·)
      else (body? quotation rest).map (c :: ·)

end Quotation

/-- Whether a character is a space or a tab. -/
def isSpacing (c : Char) : Bool :=
  c == ' ' || c == '\t'

/-- Whether a character may stand for itself: control characters other than the tab may not. -/
def isPlain (c : Char) : Bool :=
  c == '\t' || (0x20 ≤ c.toNat && c.toNat != 0x7F)

/-- Whether every carriage return is followed by a line feed. -/
def pairsReturns : List Char → Bool
  | [] => true
  | c :: rest => (c != '\r' || rest.head? == some '\n') && pairsReturns rest

/-- Whether a text may stand between quotes as it is, escapes not considered. -/
def Quotation.admits (quotation : Quotation) (body : List Char) : Bool :=
  if quotation.tripled then
    pairsReturns body && body.all fun c => isPlain c || c == '\n' || c == '\r'
  else body.all isPlain

/-- The value of a hexadecimal digit. -/
def hexDigit? (c : Char) : Option Nat :=
  if '0' ≤ c && c ≤ '9' then some (c.toNat - '0'.toNat)
  else if 'a' ≤ c && c ≤ 'f' then some (c.toNat - 'a'.toNat + 10)
  else if 'A' ≤ c && c ≤ 'F' then some (c.toNat - 'A'.toNat + 10)
  else none

/-- The character with a code point; surrogates are none. -/
def charOfDigits? (digits : List Char) : Option Char := do
  let code := Decimal.ofDigits 16 (← digits.mapM hexDigit?)
  guard (code < 0xD800 || (0xDFFF < code && code < 0x110000))
  return Char.ofNat code

/-- The character that a letter behind a backslash stands for. -/
def escape? : Char → Option Char
  | 'b' => some '\x08'
  | 't' => some '\t'
  | 'n' => some '\n'
  | 'f' => some '\x0c'
  | 'r' => some '\r'
  | 'e' => some '\x1b'
  | '"' => some '"'
  | '\\' => some '\\'
  | _ => none

/-- Whether a character is a blank or part of a line break. -/
def isGap (c : Char) : Bool :=
  isSpacing c || c == '\n' || c == '\r'

/-- Whether a backslash before this text stands at the end of its line. -/
def endsLine (rest : List Char) : Bool :=
  (rest.takeWhile isGap).contains '\n'

/--
The text that an escaped body means. A backslash at the end of a line, where there may be more than
one line (`tripled`), drops everything up to the next character that is no blank; `dropping` says
that such a backslash was read.
-/
def unescape (tripled : Bool) : Bool → List Char → Option (List Char)
  | _, [] => some []
  | dropping, c :: rest =>
    if dropping && isGap c then unescape tripled true rest
    else if c = '\\' then
      match rest with
      | 'x' :: a :: b :: rest => do
        return (← charOfDigits? [a, b]) :: (← unescape tripled false rest)
      | 'u' :: a :: b :: c :: d :: rest => do
        return (← charOfDigits? [a, b, c, d]) :: (← unescape tripled false rest)
      | 'U' :: a :: b :: c :: d :: e :: f :: g :: h :: rest => do
        return (← charOfDigits? [a, b, c, d, e, f, g, h]) :: (← unescape tripled false rest)
      | d :: rest => do
        if tripled && isGap d && endsLine (d :: rest) then unescape tripled true rest
        else return (← escape? d) :: (← unescape tripled false rest)
      | [] => none
    else (unescape tripled false rest).map (c :: ·)

/-- The text without a line break at its start. -/
def dropBreak : List Char → List Char
  | '\n' :: rest => rest
  | '\r' :: '\n' :: rest => rest
  | text => text

/-- The text that a body between quotes means. -/
def Quotation.decode? (quotation : Quotation) (body : List Char) : Option (List Char) := do
  guard (quotation.admits body)
  let body := if quotation.tripled then dropBreak body else body
  if quotation.escapes then unescape quotation.tripled false body else return body

namespace Reader

/-- Consumes a quoted text. -/
def quotedBy (quotation : Quotation) : Reader String := do
  expect quotation.marks
  match quotation.body? (← remaining) with
  | none => failure
  | some body =>
    skip body.length
    expect quotation.marks
    let text ← quotation.decode? body
    return String.ofList text

/-- Consumes a text between one quote on each side. -/
def quotedOnce (quote : Char) : Reader String :=
  quotedBy ⟨quote, false⟩

/-- Consumes a text between one or three quotes on each side. -/
def quoted (quote : Char) : Reader String := do
  quotedBy ⟨quote, (Quotation.mk quote true).marks.isPrefixOf (← remaining)⟩

end Reader

end Polyadic.Toml
