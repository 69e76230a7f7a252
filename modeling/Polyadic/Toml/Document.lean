import Polyadic.Toml.Scalar
import Polyadic.Toml.Table

/-!
# TOML documents

A document is a list of statements: headers, and keys with values. Main definition: `parse?`, the
table that a text describes, if the text is a document.
-/

namespace Polyadic.Toml

open Text (Span Located)

/-- How deep arrays and tables between braces may be nested, and how many keys may lead to one. -/
def maxDepth : Nat := 80

/-- Whether a character may stand in a key without quotes. -/
def isBareKeyChar (c : Char) : Bool :=
  c.isAlphanum || c == '_' || c == '-'

namespace Reader

/-- Consumes spaces and tabs. -/
def blanks : Reader Unit := do
  let _ ← takeWhile isSpacing

/-- Consumes a line break if there is one. -/
def lineBreak : Reader Bool := do
  if ← accept ['\n'] then return true
  accept ['\r', '\n']

/-- Consumes a comment, up to the end of its line, if there is one. -/
def comment : Reader Bool := do
  if ← accept ['#'] then
    let text ← takeWhile fun c => c != '\n' && c != '\r'
    guard (text.all isPlain)
    return true
  else return false

/-- Consumes blanks, comments and line breaks. -/
def trivia : Reader Unit := do
  let _ ← collect do
    let space ← takeWhile isSpacing
    if !space.isEmpty then return some ()
    if ← lineBreak then return some ()
    if ← comment then return some ()
    return none

/-- Consumes what may stand behind a statement, up to the end of its line. -/
def endOfLine : Reader Unit := do
  blanks
  let _ ← comment
  if ← atEnd then return
  guard (← lineBreak)

/-- Consumes one part of a key. -/
def keyPart : Reader String := do
  match ← remaining with
  | '"' :: _ => quotedOnce '"'
  | '\'' :: _ => quotedOnce '\''
  | _ =>
    let text ← takeWhile isBareKeyChar
    guard (!text.isEmpty)
    return String.ofList text

/-- Consumes a key with blanks around it; answers the parts that lead to the last one, and that. -/
def keyPath : Reader (List Key × Key) := do
  blanks
  let first ← located keyPart
  blanks
  let more ← collect do
    if ← accept ['.'] then
      blanks
      let part ← located keyPart
      blanks
      return some part
    else return none
  let parts := first :: more
  let path := parts.dropLast
  guard (path.length < maxDepth)
  return (path, parts.getLastD first)

/-- Consumes items with commas between them, and a closing bracket. -/
def itemsUntil (close : Char) (item : Reader α) : Reader (List α) :=
  collect do
    trivia
    if ← accept [close] then return none
    let found ← item
    trivia
    if ← accept [','] then return some found
    guard ((← remaining).head? == some close)
    return some found

/-- Consumes a key, an equals sign, and a value, with what `gap` consumes around the sign. -/
def assignment (gap : Reader Unit) (value : Reader Value) :
    Reader ((List Key × Key) × Located Value) := do
  let key ← keyPath
  gap
  expect ['=']
  gap
  let value ← located value
  return (key, value)

/-- Consumes a value without brackets or braces. -/
def leaf : Reader Value := do
  match ← remaining with
  | '"' :: _ => return .string (← quoted '"')
  | '\'' :: _ => return .string (← quoted '\'')
  | _ => scalar

/-- The table that keys with values between braces make. -/
def inlineTable? (items : List ((List Key × Key) × Located Value)) : Option Value := do
  let table ← items.foldlM (fun table ((path, key), value) => table.assign path key value)
    (⟨.inline, []⟩ : Table Value)
  return .table table

/-- Consumes a value; the argument says how deep it may be nested. -/
def value : Nat → Reader Value
  | 0 => leaf
  | depth + 1 => do
    match ← remaining with
    | '[' :: _ =>
      skip 1
      return .array false (← itemsUntil ']' (located (value depth)))
    | '\x7b' :: _ =>
      skip 1
      inlineTable? (← itemsUntil '\x7d' (assignment trivia (value depth)))
    | _ => leaf

end Reader

/-- A statement of a document. -/
inductive Statement where
  /-- A value for a key. -/
  | assign (path : List Key) (key : Key) (value : Located Value)
  /-- The header of a table. -/
  | table (path : List Key) (key : Key) (span : Span)
  /-- The header of a table in an array. -/
  | element (path : List Key) (key : Key) (span : Span)

namespace Reader

/-- Consumes a key between brackets. -/
def header (brackets : Nat) : Reader (List Key × Key) := do
  expect (List.replicate brackets '[')
  let key ← keyPath
  expect (List.replicate brackets ']')
  return key

/-- Consumes a statement. -/
def statement : Reader Statement := do
  match ← remaining with
  | '[' :: '[' :: _ =>
    let ⟨span, path, key⟩ ← located (header 2)
    return .element path key span
  | '[' :: _ =>
    let ⟨span, path, key⟩ ← located (header 1)
    return .table path key span
  | _ =>
    let ((path, key), value) ← assignment blanks (value maxDepth)
    return .assign path key value

/-- Consumes a document. -/
def document : Reader (List Statement) :=
  collect do
    trivia
    if ← atEnd then return none
    let found ← statement
    endOfLine
    return some found

end Reader

/-- A document as far as it is read, and the path of the table that its last header opened. -/
structure Document where
  root : Table Value := ⟨.header, []⟩
  current : List Key := []

/-- A document with one more statement. -/
def Document.add (document : Document) : Statement → Option Document
  | .assign path key value => do
    let root ← document.root.update .header (·.assign path key value) document.current
    return { document with root }
  | .table path key span => do
    return ⟨← document.root.define path key span, path ++ [key]⟩
  | .element path key span => do
    return ⟨← document.root.push path key span, path ++ [key]⟩

/-- The table that statements describe. -/
def tableOf? (statements : List Statement) : Option (Table Value) := do
  return (← statements.foldlM Document.add {}).root

/-- The table that a text describes, if it is a document. -/
def parse? (text : List Char) : Option (Table Value) := do
  let (statements, _) ← Reader.document (Reader.start text)
  tableOf? statements

end Polyadic.Toml
