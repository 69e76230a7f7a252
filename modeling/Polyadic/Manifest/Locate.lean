import Polyadic.Text.Blank
import Polyadic.Text.Span

/-!
# Finding values in a source text

A value is looked for in the lines of the source: behind the first line that assigns to its key, or as
the first text between quotes that reads like it. The search knows lines and quotes only, not what
they mean to a document.
-/

namespace Polyadic.Manifest

open Text (Span)

/-- What follows a text that has to come first. -/
def behind? (first text : List Char) : Option (List Char) :=
  if first.isPrefixOf text then some (text.drop first.length) else none

/-- What a line assigns to a key, up to the end of the line; none if it assigns nothing to it. -/
def assigned? (key line : List Char) : Option (List Char) := do
  let rest ← behind? key (Text.trimStart line)
  let rest ← behind? ['='] (Text.trimStart rest)
  return Text.trimStart rest

/-- A value without the comment and the white space behind it. -/
def withoutComment (value : List Char) : List Char :=
  Text.trimEnd (value.takeWhile (· != '#'))

/-- The value in the first of some lines that assigns to a key; `offset` is where the lines start. -/
def assignedSpanFrom (key : List Char) : Nat → List (List Char) → Option Span
  | _, [] => none
  | offset, line :: lines =>
    match assigned? key line with
    | some value =>
      some ⟨offset + (Text.byteLength line - Text.byteLength value),
        Text.byteLength (withoutComment value)⟩
    | none => assignedSpanFrom key (offset + Text.byteLength line) lines

/-- Where the value stands that the first line with an assignment to a key assigns. -/
def assignedSpan? (source key : List Char) : Option Span :=
  assignedSpanFrom key 0 (Text.linesWithEnds source)

/-- How many bytes of a text come before the first occurrence of a pattern. -/
def offsetOf? (pattern : List Char) : List Char → Option Nat
  | [] => if pattern.isEmpty then some 0 else none
  | c :: rest =>
    if pattern.isPrefixOf (c :: rest) then some 0
    else (offsetOf? pattern rest).map (c.utf8Size + ·)

/-- Where a text stands between two quotes of one kind. -/
def quotedSpan? (quote : Char) (source value : List Char) : Option Span :=
  (offsetOf? (quote :: value ++ [quote]) source).map fun offset =>
    ⟨offset + 1, Text.byteLength value⟩

/-- Where a text stands between quotes: double ones if there are any, else single ones. -/
def quotedTextSpan? (source value : List Char) : Option Span :=
  quotedSpan? '"' source value <|> quotedSpan? '\'' source value

end Polyadic.Manifest
