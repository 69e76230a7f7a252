/-!
# Layout options

How deep lines are set off and where the opening brace of a block goes.
-/

namespace Polyadic.Session

/-- What one level of indentation is made of. -/
inductive Indent where
  | tab
  | spaces (width : Nat)
  deriving DecidableEq, Repr

/-- The text of one level. Widths other than two, four and eight count as four. -/
def Indent.unit : Indent → String
  | tab => "\t"
  | spaces 2 => "  "
  | spaces 8 => "        "
  | spaces _ => "    "

/-- Where the opening brace of a block goes. -/
inductive BraceStyle where
  /-- After the header, on its line. -/
  | sameLine
  /-- Alone on the line below the header. -/
  | nextLine
  deriving DecidableEq, Repr

/-- The layout of a session's output. -/
structure Options where
  indent : Indent := .tab
  braces : BraceStyle := .sameLine
  deriving DecidableEq, Repr

end Polyadic.Session
