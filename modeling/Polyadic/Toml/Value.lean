import Polyadic.Decimal.Basic
import Polyadic.Text.Span

/-!
# TOML values

What a TOML document can say, with the place of every key and value in its text.
-/

namespace Polyadic.Toml

open Text (Span Located)

/-- A part of a key. -/
abbrev Key := Located String

/-- A floating-point number as written. -/
inductive Real where
  | finite (negative : Bool) (magnitude : Decimal)
  | infinite (negative : Bool)
  | nan
  deriving DecidableEq, Repr

/-- How a table came to be, which decides what may be added to it. -/
inductive TableKind where
  /-- By a header of its own. -/
  | header
  /-- On the way to the table of a header. -/
  | implied
  /-- On the way to a value with a dotted key. -/
  | dotted
  /-- Between braces. -/
  | inline
  deriving DecidableEq, Repr

/-- Keys with what belongs to them, in the order in which they were first written. -/
structure Table (α : Type) where
  kind : TableKind
  entries : List (Key × Located α) := []

/-- A value. -/
inductive Value where
  | string (text : String)
  /-- A whole number; none if what stands for its digits is not all digits. -/
  | integer (value : Option Int)
  | real (value : Real)
  | boolean (value : Bool)
  /-- A date, a time, or both. -/
  | date
  /-- Values between brackets, or tables under headers in double brackets. -/
  | array (ofTables : Bool) (items : List (Located Value))
  | table (table : Table Value)

instance : Inhabited Value := ⟨.boolean false⟩

/-- What belongs to a key. -/
def Table.get? (table : Table α) (key : String) : Option (Located α) :=
  (table.entries.find? (·.1.item == key)).map (·.2)

/-- Gives another value to a key that is there. -/
def Table.put (table : Table α) (key : String) (value : Located α) : Table α :=
  { table with entries := table.entries.map fun (old, was) =>
      if old.item == key then (old, value) else (old, was) }

/-- Gives another value and another place to a key that is there. -/
def Table.replace (table : Table α) (key : Key) (value : Located α) : Table α :=
  { table with entries := table.entries.map fun (old, was) =>
      if old.item == key.item then (key, value) else (old, was) }

/-- Adds a key that is not there yet. -/
def Table.add (table : Table α) (key : Key) (value : Located α) : Table α :=
  { table with entries := table.entries ++ [(key, value)] }

end Polyadic.Toml
