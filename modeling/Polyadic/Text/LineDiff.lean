import Polyadic.Text.Quoted
import Polyadic.Text.Split

/-!
# Differences between texts

Two texts that should be equal are compared line by line, and the first lines that differ are shown.
-/

namespace Polyadic.Text

/-- A line number at which two texts differ, and what they have there. -/
structure LineDifference where
  number : Nat
  expected : String
  actual : String
  deriving DecidableEq, Repr

/-- What is shown for a line that one text does not have. -/
def missingLine : String := "<missing>"

/-- The difference between two lines with a number, if they differ. -/
def lineDifference (number : Nat) (expected actual : String) : List LineDifference :=
  if expected = actual then [] else [⟨number, expected, actual⟩]

/-- The differences between two lists of lines that start with a number. -/
def differences : Nat → List String → List String → List LineDifference
  | _, [], [] => []
  | n, e :: es, [] => lineDifference n e missingLine ++ differences (n + 1) es []
  | n, [], a :: as => lineDifference n missingLine a ++ differences (n + 1) [] as
  | n, e :: es, a :: as => lineDifference n e a ++ differences (n + 1) es as

/-- How a difference is shown. -/
def LineDifference.text (difference : LineDifference) : String :=
  s!"Line {difference.number}:\n" ++
  s!"  expected: {quote difference.expected}\n" ++
  s!"  actual:   {quote difference.actual}\n"

/-- How many differences are shown. -/
def shownDifferences : Nat := 20

/-- The differences between two lists of lines as they are shown. -/
def describeDifferences (found : List LineDifference) : String :=
  if found.isEmpty then "  (line terminators differ)\n"
  else
    String.join ((found.take shownDifferences).map LineDifference.text) ++
      if shownDifferences ≤ found.length then "  ...\n" else ""

/-- The lines of a text. -/
def lineTexts (text : String) : List String :=
  (lines text.toList).map String.ofList

/-- What is reported when a text is not the expected one; nothing if it is. -/
def mismatch? (expected actual : String) : Option String :=
  if expected = actual then none
  else
    some ("Content mismatch:\n" ++
      describeDifferences (differences 1 (lineTexts expected) (lineTexts actual)))

end Polyadic.Text
