import Polyadic.Manifest.Basic
import Polyadic.Manifest.Fault

/-!
# Manifests from tables

What a table says about a manifest. The entries of a table are visited in the order of their keys, so
that the first fault does not depend on how the file is arranged. A section may also be written as an
array of its fields in their order.
-/

namespace Polyadic.Manifest

open Text (Span Located)
open Toml (Key Value Table)

/-- Reads a value of some kind at a place. -/
abbrev Decoder (α : Type) := Located Value → Except Fault α

namespace Decoder

/-- Refuses a value because of its kind. -/
def reject (expected : String) : Decoder α := fun ⟨span, value⟩ =>
  .error ⟨mismatch value expected, some span⟩

/-- A text; `expected` says what kind of text. -/
def text (expected : String) : Decoder String
  | ⟨_, .string text⟩ => .ok text
  | value => reject expected value

/-- A truth value. -/
def boolean : Decoder Bool
  | ⟨_, .boolean value⟩ => .ok value
  | value => reject "a boolean" value

/-- A number of one byte. -/
def byte : Decoder Nat
  | ⟨span, .integer (some value)⟩ =>
    if 0 ≤ value ∧ value < 256 then .ok value.toNat
    else if magnitude value = .word then .error ⟨.noByte value, some span⟩
    else reject "u8" ⟨span, .integer value⟩
  | value => reject "u8" value

/-- A list of texts. -/
def texts : Decoder (List String)
  | ⟨_, .array _ items⟩ => items.mapM (text "a string")
  | value => reject "a sequence" value

end Decoder

/-- Puts an entry in front of the first one with a greater key. -/
def insertByKey (entry : Key × Located Value) :
    List (Key × Located Value) → List (Key × Located Value)
  | [] => [entry]
  | other :: rest =>
    if entry.1.item ≤ other.1.item then entry :: other :: rest else other :: insertByKey entry rest

/-- The entries of a table in the order of their keys. -/
def sorted (table : Table Value) : List (Key × Located Value) :=
  table.entries.foldr insertByKey []

mutual

/-- The first number in a value that cannot be kept for a second look: it is none, or has too many bits. -/
def oversized? : Located Value → Option Fault
  | ⟨span, .integer value⟩ =>
    if value.any (magnitude · = .word) then none
    else some ⟨mismatch (.integer value) "any value", some span⟩
  | ⟨span, .real value⟩ =>
    match realText value with
    | .ok _ => none
    | .error cause => some ⟨cause, some span⟩
  | ⟨_, .array _ items⟩ => oversizedItems? items
  | ⟨_, .table ⟨_, entries⟩⟩ => (oversizedEntries? entries).map (·.2)
  | _ => none

/-- The first such number in a list of items. -/
def oversizedItems? : List (Located Value) → Option Fault
  | [] => none
  | ⟨span, value⟩ :: items => oversized? ⟨span, value⟩ <|> oversizedItems? items

/-- The first such number in the entries of a table, with its key; the least key comes first. -/
def oversizedEntries? : List (Key × Located Value) → Option (String × Fault)
  | [] => none
  | (key, ⟨span, value⟩) :: entries =>
    match oversized? ⟨span, value⟩, oversizedEntries? entries with
    | none, later => later
    | some fault, none => some (key.item, fault)
    | some fault, some (least, later) =>
      if key.item ≤ least then some (key.item, fault) else some (least, later)

end

/-- The numbers of spaces that are supported. -/
def supportedWidths : List Int := [2, 4, 8]

/-- An indentation: the text `tab` or a number of spaces. -/
def indentDecoder : Decoder Session.Indent := fun value =>
  match oversized? value with
  | some fault => .error fault
  | none =>
    match value.item with
    | .string "tab" => .ok .tab
    | .string name => .error ⟨.unknownIndent name, none⟩
    | .integer (some width) =>
      if width < Binary.twoTo 63 then
        if width ∈ supportedWidths then .ok (.spaces width.toNat)
        else .error ⟨.unsupportedWidth width, none⟩
      else .error ⟨.noIndent, none⟩
    | _ => .error ⟨.noIndent, none⟩

/-- The names of the brace styles. -/
def braceNames : List String := ["same-line", "next-line"]

/-- The brace style with a name. -/
def braceStyle (name : String) (span : Span) : Except Fault Session.BraceStyle :=
  if name = "same-line" then .ok .sameLine
  else if name = "next-line" then .ok .nextLine
  else .error ⟨.unknownVariant name braceNames, some span⟩

/-- Accepts what may stand beside the name of a variant that holds nothing. -/
def nothing : Decoder Unit
  | ⟨_, .array _ []⟩ => .ok ()
  | ⟨span, .array ..⟩ => .error ⟨.filledArray, some span⟩
  | ⟨_, .table ⟨_, []⟩⟩ => .ok ()
  | ⟨span, .table _⟩ => .error ⟨.filledTable, some span⟩
  | ⟨span, .string _⟩ => .error ⟨.noTable "string", some span⟩
  | ⟨span, .integer _⟩ => .error ⟨.noTable "integer", some span⟩
  | ⟨span, .real _⟩ => .error ⟨.noTable "float", some span⟩
  | ⟨span, .boolean _⟩ => .error ⟨.noTable "boolean", some span⟩
  | ⟨span, .date⟩ => .error ⟨.noTable "datetime", some span⟩

/-- A brace style: its name, or a table with the name as its only key. -/
def braceDecoder : Decoder Session.BraceStyle
  | ⟨span, .string name⟩ => braceStyle name span
  | ⟨_, .table ⟨_, [(key, content)]⟩⟩ => do
    let style ← braceStyle key.item key.span
    nothing content
    return style
  | ⟨span, .table ⟨_, []⟩⟩ => .error ⟨.noKey, some span⟩
  | ⟨span, .table _⟩ => .error ⟨.manyKeys, some span⟩
  | ⟨span, _⟩ => .error ⟨.noVariant, some span⟩

/-- A field of a section: its name, and what its value changes. -/
structure Field (σ : Type) where
  name : String
  decode : Located Value → σ → Except Fault σ

/-- A field whose value is put into the section. -/
def Field.of (name : String) (decoder : Decoder α) (put : α → σ → σ) : Field σ where
  name
  decode value record := return put (← decoder value) record

/-- A fault without a place gets one. -/
def within (span : Span) : Except Fault α → Except Fault α :=
  Except.mapError (Fault.within span)

/-- The key under which a date shows itself where a table is expected. -/
def dateKey : String := "$__toml_private_datetime"

/-- A section with the given fields, which keep what `default` says where they are missing. -/
def sectionDecoder (expected : String) (fields : List (Field σ)) (default : σ) : Decoder σ
  | ⟨_, .table table⟩ =>
    (sorted table).foldlM (fun record (key, value) =>
      match fields.find? (·.name == key.item) with
      | none => .error ⟨.unknownField key.item (fields.map (·.name)), some key.span⟩
      | some field => within value.span (field.decode value record)) default
  | ⟨span, .array _ items⟩ =>
    within span <|
      (fields.zip items).foldlM (fun record (field, value) => field.decode value record) default
  | ⟨span, .date⟩ => .error ⟨.unknownField dateKey (fields.map (·.name)), some span⟩
  | value => Decoder.reject expected value

/-- A manifest whose bounds of arity are not judged yet. -/
structure Draft where
  output : Output := {}
  min : Nat := Arities.default.min
  max : Nat := Arities.default.max
  names : Names := {}
  deriving DecidableEq, Repr

/-- The fields of the output section. -/
def outputFields : List (Field Output) :=
  [.of "path" (Decoder.text "path string") fun path output => { output with path },
   .of "indent" indentDecoder fun indent output => { output with indent },
   .of "brace_style" braceDecoder fun braces output => { output with braces },
   .of "support" Decoder.boolean fun support output => { output with support }]

/-- The fields of the arity section, which holds the two bounds. -/
def arityFields : List (Field (Nat × Nat)) :=
  [.of "min" Decoder.byte fun min bounds => (min, bounds.2),
   .of "max" Decoder.byte fun max bounds => (bounds.1, max)]

/-- The fields of the section with the names. -/
def namesFields : List (Field Names) :=
  [.of "namespace" (Decoder.text "a string") fun namespaceName names => { names with namespaceName },
   .of "usings" Decoder.texts fun usings names => { names with usings },
   .of "key" (Decoder.text "a string") fun key names => { names with key }]

/-- The sections of a manifest. -/
def sections : List (Field Draft) :=
  [.of "output" (sectionDecoder "struct OutputConfig" outputFields {}) fun output draft =>
     { draft with output },
   .of "arity"
     (sectionDecoder "struct RawArity" arityFields (Arities.default.min, Arities.default.max))
     fun (min, max) draft => { draft with min, max },
   .of "csharp" (sectionDecoder "struct CsharpConfig" namesFields {}) fun names draft =>
     { draft with names }]

/-- What a document says about a manifest. -/
def Draft.ofTable (table : Table Value) : Except Fault Draft :=
  sectionDecoder "a manifest" sections {} ⟨⟨0, 0⟩, .table table⟩

end Polyadic.Manifest
