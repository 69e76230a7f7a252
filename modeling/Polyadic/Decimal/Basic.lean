/-!
# Decimal numbers

Numbers of the form `digits * 10 ^ exponent`, and their text in positional notation.
-/

namespace Polyadic

/-- A number that is a whole number of powers of ten. -/
structure Decimal where
  digits : Nat
  exponent : Int
  deriving DecidableEq, Repr

namespace Decimal

/-- A power of ten. -/
def tenTo (n : Nat) : Nat := Nat.pow 10 n

/-- The number that digits stand for, most significant first. -/
def ofDigits (base : Nat) (digits : List Nat) : Nat :=
  digits.foldl (fun value digit => base * value + digit) 0

/-- The digits of a natural number, most significant first. -/
def digitChars (n : Nat) : List Char :=
  Nat.toDigits 10 n

/-- The fraction without the zeros it ends in, except that one digit stays. -/
def trimFraction (fraction : List Char) : List Char :=
  match (fraction.reverse.dropWhile (· == '0')).reverse with
  | [] => ['0']
  | kept => kept

/-- The number with all its digits before and after a point, and at least one on either side. -/
def positional (number : Decimal) : List Char :=
  match number.exponent with
  | .ofNat zeros => digitChars (number.digits * tenTo zeros) ++ ['.', '0']
  | .negSucc n =>
    let places := n + 1
    let digits := digitChars number.digits
    let padded := List.replicate (places + 1 - digits.length) '0' ++ digits
    padded.take (padded.length - places) ++ '.' :: trimFraction (padded.drop (padded.length - places))

end Decimal

end Polyadic
