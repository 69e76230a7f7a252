import Polyadic.Decimal.Basic

/-!
# Binary floating point

Magnitudes with 53 binary digits and a bounded exponent, the one nearest to a decimal number, and the
shortest decimal number that leads back to a magnitude.
-/

namespace Polyadic

/-- The magnitude `mantissa * 2 ^ exponent`. The mantissa has 53 binary digits, or fewer with the
least exponent. -/
structure Binary where
  mantissa : Nat
  exponent : Int
  deriving DecidableEq, Repr

namespace Binary

open Decimal (tenTo)

/-- A power of two. -/
def twoTo (n : Nat) : Nat := Nat.pow 2 n

/-- How many binary digits a mantissa has. -/
def precision : Nat := 53

/-- The least exponent of a mantissa. -/
def minExponent : Int := -1074

/-- The greatest exponent of a mantissa. -/
def maxExponent : Int := 971

/-- A quotient rounded to a whole number, half to even. -/
def roundDiv (num den : Nat) : Nat :=
  let quotient := num / den
  let rest := 2 * (num % den)
  if rest < den then quotient
  else if den < rest then quotient + 1
  else quotient + quotient % 2

/-- The greatest `e` with `2 ^ e ≤ num / den`. -/
def logDiv (num den : Nat) : Int :=
  let e : Int := num.log2 - den.log2
  if num * twoTo (-e).toNat < den * twoTo e.toNat then e - 1 else e

/-- The magnitude nearest to a quotient, half to the even mantissa; none beyond the greatest. -/
def ofQuotient? (num den : Nat) : Option Binary :=
  let exponent := max minExponent (logDiv num den + 1 - precision)
  let mantissa := roundDiv (num * twoTo (-exponent).toNat) (den * twoTo exponent.toNat)
  let rounded : Binary :=
    if mantissa = twoTo precision then ⟨twoTo (precision - 1), exponent + 1⟩ else ⟨mantissa, exponent⟩
  if maxExponent < rounded.exponent then none else some rounded

/-- Zero. -/
def zero : Binary := ⟨0, minExponent⟩

/--
The magnitude nearest to a decimal number; none beyond the greatest. A number from `10 ^ 310` up is
beyond it, and one below `10 ^ (-330)` is nearer to zero than to anything else, so neither is computed.
-/
def ofDecimal? (number : Decimal) : Option Binary :=
  let length : Int := (Decimal.digitChars number.digits).length
  if number.digits = 0 then some zero
  else if 310 < length + number.exponent then none
  else if length + number.exponent < -330 then some zero
  else
    ofQuotient? (number.digits * tenTo number.exponent.toNat) (tenTo (-number.exponent).toNat)

/-- The magnitudes between which all decimal numbers are nearer to this one than to any other, as
multiples of a quarter of the last binary digit. -/
def bounds (number : Binary) : Nat × Nat :=
  let quarters := 4 * number.mantissa
  (quarters - (if number.mantissa = twoTo (precision - 1) then 1 else 2), quarters + 2)

/-- Whether a decimal number lies between the bounds; the bounds themselves belong to an even
mantissa. -/
def holds (number : Binary) (candidate : Decimal) : Bool :=
  let (lower, upper) := number.bounds
  let scale := number.exponent - 2
  let twos (e : Int) := twoTo e.toNat
  let tens (e : Int) := tenTo e.toNat
  let side (n : Nat) := n * twos scale * tens (-candidate.exponent)
  let middle := candidate.digits * tens candidate.exponent * twos (-scale)
  if number.mantissa % 2 = 0 then side lower ≤ middle && middle ≤ side upper
  else side lower < middle && middle < side upper

/-- The magnitude as a fraction. -/
def fraction (number : Binary) : Nat × Nat :=
  (number.mantissa * twoTo number.exponent.toNat, twoTo (-number.exponent).toNat)

/-- Finds where the most significant digit of a fraction stands, counting down from an exponent. -/
def leadFrom (num den : Nat) : Nat → Int → Int
  | 0, e => e
  | steps + 1, e =>
    if den * tenTo e.toNat ≤ num * tenTo (-e).toNat then e else leadFrom num den steps (e - 1)

/-- The two neighbours of the magnitude among the multiples of a power of ten that lead back to it,
the nearer one first; of two equally near ones, the greater. -/
def neighbours (number : Binary) (exponent : Int) : List Decimal :=
  let (num, den) := number.fraction
  let num := num * tenTo (-exponent).toNat
  let den := den * tenTo exponent.toNat
  let below := num / den
  let pair :=
    if 2 * (num % den) < den then [below, below + 1] else [below + 1, below]
  (pair.map (Decimal.mk · exponent)).filter number.holds

/-- Tries finer and finer powers of ten. -/
def searchFrom (number : Binary) : Nat → Int → Decimal
  | 0, _ => ⟨0, 0⟩
  | steps + 1, exponent =>
    match number.neighbours exponent with
    | found :: _ => found
    | [] => searchFrom number steps (exponent - 1)

/-- The decimal number with the fewest digits that leads back to the magnitude, and of those the
nearest one. Seventeen digits are always enough. -/
def shortest (number : Binary) : Decimal :=
  if number.mantissa = 0 then ⟨0, 0⟩
  else
    let (num, den) := number.fraction
    number.searchFrom 17 (leadFrom num den 640 309)

end Binary

end Polyadic
