import Polyadic.Decimal.Binary
import Polyadic.Text.Quoted
import Polyadic.Toml.Value

/-!
# What is wrong with a value

The reasons for which a value in a manifest file is not what is expected at its place, and their texts.
-/

namespace Polyadic.Manifest

open Text (Span)

/-- A number that fits no numeric type. -/
inductive Overflow where
  | integer
  | real
  deriving DecidableEq, Repr

/-- Why a value is not accepted. -/
inductive Cause where
  /-- A value of one kind stands where another is expected. -/
  | wrongType (found expected : String)
  /-- An integer that is no byte stands where a byte is expected. -/
  | noByte (value : Int)
  | overflow (kind : Overflow)
  | unknownField (key : String) (known : List String)
  | unknownVariant (name : String) (known : List String)
  /-- A text that names no indentation. -/
  | unknownIndent (name : String)
  /-- A number of spaces that is not supported. -/
  | unsupportedWidth (width : Int)
  /-- A value that is neither text nor number where an indentation is expected. -/
  | noIndent
  /-- A value that can name no variant. -/
  | noVariant
  /-- A table that is to name one variant has no keys. -/
  | noKey
  /-- A table that is to name one variant has several keys. -/
  | manyKeys
  /-- A variant that holds nothing is given items. -/
  | filledArray
  /-- A variant that holds nothing is given entries. -/
  | filledTable
  /-- A variant that holds nothing is given a value. -/
  | noTable (found : String)
  deriving DecidableEq, Repr

/-- How names and numbers are set off in messages. -/
def mark (text : String) : String :=
  "\x60" ++ text ++ "\x60"

/-- How the names that would be accepted are listed. -/
def alternatives (names : List String) : String :=
  match names.map mark with
  | [first, second] => s!"{first} or {second}"
  | marked => "one of " ++ String.intercalate ", " marked

/-- The text of the cause. -/
def Cause.message : Cause → String
  | wrongType found expected => s!"invalid type: {found}, expected {expected}"
  | noByte value => s!"invalid value: integer {mark (toString value)}, expected u8"
  | overflow .integer => "integer number overflowed"
  | overflow .real => "floating-point number overflowed"
  | unknownField key known => s!"unknown field {mark key}, expected {alternatives known}"
  | unknownVariant name known => s!"unknown variant {mark name}, expected {alternatives known}"
  | unknownIndent name => s!"unknown indent '{name}', expected \"tab\" or a space count"
  | unsupportedWidth width => s!"unsupported indent width {width}, expected 2, 4 or 8"
  | noIndent => "data did not match any variant of untagged enum RawIndent"
  | noVariant => "wanted string or table"
  | noKey => "wanted exactly 1 element, found 0 elements"
  | manyKeys => "wanted exactly 1 element, more than 1 element"
  | filledArray => "expected empty array"
  | filledTable => "expected empty table"
  | noTable found => s!"expected table, found {found}"

/-- Why a value is not accepted, and where it stands, if that is known yet. -/
structure Fault where
  cause : Cause
  span : Option Span := none
  deriving DecidableEq, Repr

/-- The fault at a place, unless it has one already. -/
def Fault.within (span : Span) (fault : Fault) : Fault :=
  { fault with span := fault.span <|> some span }

/-- How large an integer is. -/
inductive Magnitude where
  /-- It takes up to 64 bits, with or without sign. -/
  | word
  /-- It takes up to 128 bits with sign. -/
  | signed
  /-- It takes up to 128 bits without sign. -/
  | unsigned
  | beyond
  deriving DecidableEq, Repr

/-- How large an integer is. -/
def magnitude (value : Int) : Magnitude :=
  if -Binary.twoTo 63 ≤ value ∧ value < Binary.twoTo 64 then .word
  else if -Binary.twoTo 127 ≤ value ∧ value < Binary.twoTo 127 then .signed
  else if 0 ≤ value ∧ value < Binary.twoTo 128 then .unsigned
  else .beyond

/-- How an integer is described; one that is too large is a fault. -/
def describeInteger (value : Int) : Except Cause String :=
  match magnitude value with
  | .word => .ok s!"integer {mark (toString value)}"
  | .signed => .ok s!"integer {mark (toString value)} as i128"
  | .unsigned => .ok s!"integer {mark (toString value)} as u128"
  | .beyond => .error (.overflow .integer)

/-- The text of a floating-point number, rounded to 53 binary digits; none when it is too large. -/
def realText : Toml.Real → Except Cause String
  | .nan => .ok "NaN"
  | .infinite negative => .ok (if negative then "-inf" else "inf")
  | .finite negative magnitude =>
    match Binary.ofDecimal? magnitude with
    | none => .error (.overflow .real)
    | some rounded =>
      let text := String.ofList rounded.shortest.positional
      .ok (if negative then "-" ++ text else text)

/-- How a value is described; numbers that are none or too large are faults of their own. -/
def describe : Toml.Value → Except Cause String
  | .string text => .ok s!"string {Text.quote text}"
  | .integer (some value) => describeInteger value
  | .integer none => .error (.overflow .integer)
  | .real value => (realText value).map fun text => s!"floating point {mark text}"
  | .boolean value => .ok s!"boolean {mark (toString value)}"
  | .date | .table _ => .ok "map"
  | .array .. => .ok "sequence"

/-- The cause when a value stands where something else is expected. -/
def mismatch (value : Toml.Value) (expected : String) : Cause :=
  match describe value with
  | .ok found => .wrongType found expected
  | .error cause => cause

end Polyadic.Manifest
