/-!
# Balanced braces
-/

namespace Polyadic.Text

/-- How many braces are open behind a text that starts with `depth` of them open; none if the text
closes one that was not opened. -/
def openBraces : Nat → List Char → Option Nat
  | depth, [] => some depth
  | depth, c :: rest =>
    if c = '\x7b' then openBraces (depth + 1) rest
    else if c = '\x7d' then
      match depth with
      | 0 => none
      | depth + 1 => openBraces depth rest
    else openBraces depth rest

/-- Whether every brace that is opened is closed and none is closed that was not opened. -/
def hasBalancedBraces (text : String) : Bool :=
  openBraces 0 text.toList == some 0

end Polyadic.Text
