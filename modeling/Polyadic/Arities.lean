/-!
# Ranges of arities

How many key components the generated declarations take: a closed interval of arities, from one up to
the largest tuple. The bounds are part of the type, so every range in the library is a valid one.
-/

namespace Polyadic

/-- The largest number of components a tuple takes without nesting. -/
def tupleLimit : Nat := 7

/-- A closed interval of arities, `min` to `max`. -/
structure Arities where
  min : Nat
  max : Nat
  one_le_min : 1 ≤ min
  min_le_max : min ≤ max
  max_le : max ≤ tupleLimit
  deriving DecidableEq

/-- Why two bounds make no range of arities. -/
inductive ArityFault where
  | zero
  | inverted (min max : Nat)
  | tooLarge (max : Nat)
  deriving DecidableEq, Repr

namespace ArityFault

/-- The text of the error. -/
def message : ArityFault → String
  | zero => "arity must be at least 1"
  | inverted min max => s!"minimum arity {min} is greater than maximum arity {max}"
  | tooLarge max => s!"arity {max} exceeds the largest supported tuple arity {tupleLimit}"

end ArityFault

namespace Arities

/-- The range between two bounds; the lower bound is judged first, then their order, then the upper. -/
def ofBounds (min max : Nat) : Except ArityFault Arities :=
  if one_le : min = 0 then .error .zero
  else if le : max < min then .error (.inverted min max)
  else if max_le : tupleLimit < max then .error (.tooLarge max)
  else .ok ⟨min, max, by omega, by omega, by omega⟩

/-- The range used when nothing else is asked for. -/
def default : Arities :=
  ⟨1, 5, by decide, by decide, by decide⟩

instance : Inhabited Arities := ⟨default⟩

/-- The range with either bound replaced, judged again. -/
def replaceBounds (range : Arities) (min max : Option Nat) : Except ArityFault Arities :=
  ofBounds (min.getD range.min) (max.getD range.max)

/-- Whether an arity lies in the range. -/
def contains (range : Arities) (arity : Nat) : Bool :=
  range.min ≤ arity && arity ≤ range.max

/-- How many arities the range holds. -/
def size (range : Arities) : Nat :=
  range.max - range.min + 1

/-- The arities of the range, in increasing order. -/
def toList (range : Arities) : List Nat :=
  List.range' range.min range.size

/-- A range is written as its bounds, a single arity as itself. -/
def text (range : Arities) : String :=
  if range.min = range.max then toString range.min
  else s!"{range.min}..={range.max}"

theorem ofBounds_self (range : Arities) : ofBounds range.min range.max = .ok range := by
  have h₁ := range.one_le_min
  have h₂ := range.min_le_max
  have h₃ := range.max_le
  simp [ofBounds, show range.min ≠ 0 by omega, show ¬ range.max < range.min by omega,
    show ¬ tupleLimit < range.max by omega]

theorem length_toList (range : Arities) : range.toList.length = range.size := by
  simp [toList]

theorem mem_toList {range : Arities} {arity : Nat} :
    arity ∈ range.toList ↔ range.min ≤ arity ∧ arity ≤ range.max := by
  have := range.min_le_max
  simp [toList, size, List.mem_range'_1]
  omega

end Arities

end Polyadic
