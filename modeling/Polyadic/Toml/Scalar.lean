import Polyadic.Toml.Quoted
import Polyadic.Toml.Value

/-!
# Values written without quotes

Numbers, truth values, dates and times, each recognised from its whole text.
-/

namespace Polyadic.Toml

/-- A text without the underscores in it, each of which has to stand between two digits. -/
def ungroup (isDigit : Char → Bool) : List Char → Option (List Char)
  | [] => some []
  | '_' :: _ => none
  | c :: '_' :: d :: rest =>
    if isDigit c && isDigit d then (ungroup isDigit (d :: rest)).map (c :: ·) else none
  | c :: rest => (ungroup isDigit rest).map (c :: ·)

/-- The number that digits stand for. -/
def natural (base : Nat) (digits : List Char) : Nat :=
  Decimal.ofDigits base (digits.filterMap hexDigit?)

/-- Whether a character is a digit of a base up to sixteen. -/
def isDigitOf (base : Nat) (c : Char) : Bool :=
  match hexDigit? c with
  | some value => value < base
  | none => false

/-- The number that a text of digits stands for, if there are any and nothing else. -/
def digits? (base : Nat) (text : List Char) : Option Nat :=
  if !text.isEmpty && text.all (isDigitOf base) then some (natural base text) else none

/-- Whether a number starts with a zero that says nothing. -/
def hasLeadingZero : List Char → Bool
  | '0' :: c :: _ => c.isDigit || c == '_'
  | _ => false

/-- Cuts off a sign, if there is one. -/
def cutSign : List Char → Option Char × List Char
  | '-' :: rest => (some '-', rest)
  | '+' :: rest => (some '+', rest)
  | text => (none, text)

/-- The number with a sign put to it. -/
def signed (sign : Option Char) (magnitude : Nat) : Int :=
  if sign = some '-' then -magnitude else magnitude

/-- What a text writes in the form of a whole number with a mark of its base: the number, if there
are digits behind the mark. -/
def based? (base : Nat) (text : List Char) : Option (Option Int) := do
  let digits ← ungroup (isDigitOf base) text
  guard (digits.all (isDigitOf base))
  return (digits? base digits).map Int.ofNat

/--
What a text writes in the form of a whole number in base ten: the number, if it is one. With an
underscore behind the first digits, the form asks only that there be no space and no mark of a
fraction or exponent, and that digits or letters up to `f` stand around each underscore; whether all
are digits decides whether it is a number.
-/
def decimal? (text : List Char) : Option (Option Int) := do
  let (sign, magnitude) := cutSign text
  let more := magnitude.dropWhile Char.isDigit
  guard (!magnitude.isEmpty && !hasLeadingZero magnitude)
  guard (more.isEmpty || more.head? == some '_')
  guard (!more.any [' ', '.', 'e', 'E'].contains)
  let digits ← ungroup (isDigitOf 16) magnitude
  return (digits? 10 digits).map (signed sign)

/-- What a text in the form of a whole number writes: the number, if it is one. -/
def integer? : List Char → Option (Option Int)
  | '0' :: 'x' :: digits => based? 16 digits
  | '0' :: 'o' :: digits => based? 8 digits
  | '0' :: 'b' :: digits => based? 2 digits
  | text => decimal? text

/-- What stands before and behind the first character that satisfies `p`. -/
def cutAt (p : Char → Bool) (text : List Char) : List Char × Option (List Char) :=
  (text.takeWhile (!p ·), (text.dropWhile (!p ·)).tail?)

/-- The exponent of a number; none written means zero. -/
def exponent? : Option (List Char) → Option Int
  | none => some 0
  | some text =>
    let (sign, magnitude) := cutSign text
    (digits? 10 magnitude).map (signed sign)

/-- The digits behind the point; none written means none. -/
def fraction? : Option (List Char) → Option (List Char)
  | none => some []
  | some text => if (digits? 10 text).isSome then some text else none

/-- The floating-point number that a text writes. -/
def real? (text : List Char) : Option Real := do
  let (sign, magnitude) := cutSign text
  let negative := sign == some '-'
  if magnitude = "inf".toList then return .infinite negative
  if magnitude = "nan".toList then return .nan
  guard (!hasLeadingZero magnitude)
  let magnitude ← ungroup Char.isDigit magnitude
  let (mantissa, exponent) := cutAt (fun c => c == 'e' || c == 'E') magnitude
  let (whole, fraction) := cutAt (· == '.') mantissa
  guard (fraction.isSome || exponent.isSome)
  guard (digits? 10 whole).isSome
  let fraction ← fraction? fraction
  let exponent ← exponent? exponent
  return .finite negative ⟨natural 10 (whole ++ fraction), exponent - fraction.length⟩

/-- A number of exactly `count` decimal digits, and what follows it. -/
def fixedNumber? (count : Nat) (text : List Char) : Option (Nat × List Char) :=
  let digits := text.take count
  if digits.length = count && digits.all Char.isDigit then
    some (natural 10 digits, text.drop count)
  else none

/-- What follows a character that has to come next. -/
def after? (c : Char) : List Char → Option (List Char)
  | d :: rest => if d = c then some rest else none
  | [] => none

/-- How many days a month has. -/
def daysIn (year month : Nat) : Nat :=
  if month = 2 then
    if year % 4 = 0 ∧ (year % 100 ≠ 0 ∨ year % 400 = 0) then 29 else 28
  else if month ∈ [4, 6, 9, 11] then 30 else 31

/-- What follows a day of the calendar at the start of a text. -/
def afterDay? (text : List Char) : Option (List Char) := do
  let (year, text) ← fixedNumber? 4 text
  let (month, text) ← fixedNumber? 2 (← after? '-' text)
  let (day, text) ← fixedNumber? 2 (← after? '-' text)
  guard (1 ≤ month && month ≤ 12 && 1 ≤ day && day ≤ daysIn year month)
  return text

/-- What follows hours and minutes at the start of a text. -/
def afterMinutes? (text : List Char) : Option (List Char) := do
  let (hour, text) ← fixedNumber? 2 text
  let (minute, text) ← fixedNumber? 2 (← after? ':' text)
  guard (hour ≤ 23 && minute ≤ 59)
  return text

/-- What follows a part of a second at the start of a text, if there is one. -/
def afterFraction? : List Char → Option (List Char)
  | '.' :: rest => do
    guard (!(rest.takeWhile Char.isDigit).isEmpty)
    return rest.dropWhile Char.isDigit
  | text => some text

/-- What follows a time of day at the start of a text; seconds may be left out. -/
def afterTime? (text : List Char) : Option (List Char) := do
  let text ← afterMinutes? text
  match text with
  | ':' :: rest =>
    let (second, text) ← fixedNumber? 2 rest
    guard (second ≤ 60)
    afterFraction? text
  | _ => return text

/-- Whether a text writes a distance from universal time. -/
def isOffset : List Char → Bool
  | ['Z'] | ['z'] => true
  | sign :: rest => (sign == '+' || sign == '-') && afterMinutes? rest == some []
  | [] => false

/-- Whether a text writes a day, a time, or both. -/
def isDate (text : List Char) : Bool :=
  match afterDay? text with
  | some [] => true
  | some (separator :: rest) =>
    ['T', 't', ' '].contains separator &&
      match afterTime? rest with
      | some [] => true
      | some offset => isOffset offset
      | none => false
  | none => afterTime? text == some []

/-- The value that a text without quotes writes. -/
def scalar? (text : List Char) : Option Value :=
  if text = "true".toList then some (.boolean true)
  else if text = "false".toList then some (.boolean false)
  else if isDate text then some .date
  else
    match integer? text with
    | some value => some (.integer value)
    | none => (real? text).map .real

/-- The characters other than white space before which a value without quotes ends. -/
def scalarEnds : List Char := ['#', '=', ',', '[', ']', '\x7b', '\x7d']

/-- Whether a character may belong to a word of a value without quotes. -/
def isScalarChar (c : Char) : Bool :=
  !(isGap c || scalarEnds.contains c)

/-- Whether a text starts with a word that is not quoted, blanks before it not counted. -/
def startsWord (text : List Char) : Bool :=
  match text.dropWhile isSpacing with
  | [] => false
  | c :: _ => isScalarChar c && c != '"' && c != '\''

/-- The value without quotes at the start of a text: its words, and the blanks between them. -/
def scalarText : List Char → List Char
  | [] => []
  | c :: rest =>
    if isScalarChar c || (isSpacing c && startsWord rest) then c :: scalarText rest else []

namespace Reader

/-- Consumes a value without quotes. -/
def scalar : Reader Value := do
  let text := scalarText (← remaining)
  skip text.length
  match scalar? text with
  | some value => return value
  | none => failure

end Reader

end Polyadic.Toml
