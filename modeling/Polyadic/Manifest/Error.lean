import Polyadic.Arities
import Polyadic.Manifest.Basic
import Polyadic.Manifest.Fault

/-!
# Why a manifest is rejected

The causes in the order in which they are looked for, and how they are reported: a message, a code,
advice, and a label at the place in the source.
-/

namespace Polyadic.Manifest

open Text (Span)

/-- Why a name cannot be used in the generated sources. -/
inductive NameFault where
  | empty
  | badStart
  | badCharacter
  | emptySegment
  | reservedSegment
  | upperCase
  deriving DecidableEq, Repr

/-- The text of the reason. -/
def NameFault.reason : NameFault → String
  | empty => "name cannot be empty"
  | badStart => "name must start with a letter or underscore"
  | badCharacter => "name must contain only letters, numbers, and underscores"
  | emptySegment => "name cannot contain empty segments"
  | reservedSegment => "segment is a reserved C# keyword"
  | upperCase => "key base name must start with a lowercase letter"

/-- Why the path of the main file cannot be used. -/
inductive PathFault where
  | empty
  | outside
  | support
  deriving DecidableEq, Repr

/-- The text of the reason. -/
def PathFault.message : PathFault → String
  | empty => "output path cannot be empty"
  | outside => "output path must stay inside the output directory"
  | support => s!"output path collides with the support file {supportFileName}"

/-- Why the text of a manifest file is rejected. -/
inductive Rejection where
  /-- The text is no document. -/
  | malformed
  /-- The document says something else than a manifest. -/
  | undecodable (cause : Cause)
  | arity (cause : ArityFault)
  /-- A name is wrong; `context` says what it names. -/
  | name (name context : String) (fault : NameFault)
  | path (fault : PathFault)
  deriving DecidableEq

/-- Why there is no manifest. -/
inductive Error where
  /-- The file cannot be read as text. -/
  | unreadable (file : String)
  /-- The text of the file is rejected, because of what stands at the span if there is one. -/
  | rejected (file : String) (span : Option Span) (cause : Rejection)
  deriving DecidableEq

namespace Rejection

/-- The message to the user. -/
def message : Rejection → String
  | malformed | undecodable _ => "failed to parse mapgen.toml"
  | arity cause => s!"invalid arity range: {cause.message}"
  | .name text context _ => s!"invalid {context} '{text}'"
  | path fault => fault.message

/-- The code under which the rejection is reported. -/
def code : Rejection → String
  | malformed | undecodable _ => "mapgen::parse_error"
  | arity _ => "mapgen::invalid_arity"
  | name .. => "mapgen::invalid_identifier"
  | path _ => "mapgen::validation_error"

/-- Advice on mending the cause, where there is any. -/
def help? : Rejection → Option String
  | arity _ => some s!"arities must satisfy 1 <= min <= max <= {tupleLimit}"
  | name _ _ fault =>
    some s!"{fault.reason}. Use letters, digits and underscores, starting with a letter or underscore."
  | _ => none

/-- What is written at the place in the source. -/
def label : Rejection → String
  | malformed | undecodable _ => "parse error here"
  | arity cause => cause.message
  | name .. => "invalid identifier"
  | path fault => fault.message

end Rejection

namespace Error

/-- The message to the user. -/
def message : Error → String
  | unreadable file => s!"failed to read '{file}'"
  | rejected _ _ cause => cause.message

/-- The code under which the error is reported, where there is one. -/
def code? : Error → Option String
  | unreadable _ => none
  | rejected _ _ cause => some cause.code

/-- Advice on mending the cause, where there is any. -/
def help? : Error → Option String
  | unreadable _ => some "run 'mapgen init' to create a mapgen.toml"
  | rejected _ _ cause => cause.help?

/-- The place in the source, where there is one. -/
def span? : Error → Option Span
  | unreadable _ => none
  | rejected _ span _ => span

/-- The labels to be shown in the source. -/
def labels : Error → List (String × Span)
  | rejected _ (some span) cause => [(cause.label, span)]
  | _ => []

end Error

end Polyadic.Manifest
