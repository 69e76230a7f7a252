import Polyadic.Toml.Value

/-!
# Building tables

Where headers and dotted keys lead in a table, and what they may define there. Nothing is defined
twice, and a table that is complete takes nothing more.
-/

namespace Polyadic.Toml

open Text (Span Located)

/-- What a path of keys is part of. -/
inductive Descent where
  /-- A header. -/
  | header
  /-- A dotted key. -/
  | dotted
  deriving DecidableEq, Repr

namespace Descent

/-- The kind of the tables that a path makes where there are none. -/
def made : Descent → TableKind
  | header => .implied
  | dotted => .dotted

/-- Whether a path may lead through a table. A header may lead through all but those between braces, a
dotted key only through tables that have neither header nor braces. -/
def admits : Descent → TableKind → Bool
  | header, kind => kind ≠ .inline
  | dotted, kind => kind = .implied || kind = .dotted

end Descent

namespace Table

/-- Changes the table to which a path leads, making it where it is missing. In an array of tables the
path leads on from the last one. -/
def update (descent : Descent) (change : Table Value → Option (Table Value)) :
    List Key → Table Value → Option (Table Value)
  | [], table => change table
  | key :: path, table =>
    match table.get? key.item with
    | none => do
      let inner ← update descent change path ⟨descent.made, []⟩
      return table.add key ⟨key.span, .table inner⟩
    | some ⟨span, .table inner⟩ => do
      guard (descent.admits inner.kind)
      let inner ← update descent change path inner
      return table.put key.item ⟨span, .table inner⟩
    | some ⟨span, .array true items⟩ =>
      match items.reverse with
      | ⟨itemSpan, .table inner⟩ :: before => do
        let inner ← update descent change path inner
        return table.put key.item ⟨span, .array true (before.reverse ++ [⟨itemSpan, .table inner⟩])⟩
      | _ => none
    | some _ => none

/-- Gives a value to a key that has none. -/
def insert (key : Key) (value : Located Value) (table : Table Value) : Option (Table Value) :=
  match table.get? key.item with
  | none => some (table.add key value)
  | some _ => none

/-- Gives a value to a key behind a path of others. The table to which the path leads must have come
about by dotted keys alone. -/
def assign (path : List Key) (key : Key) (value : Located Value) (table : Table Value) :
    Option (Table Value) :=
  table.update .dotted (fun inner =>
    if path.isEmpty || inner.kind = .dotted then inner.insert key value else none) path

/-- Defines the table of a header. A table that was only led through until now gets its place. -/
def define (path : List Key) (key : Key) (span : Span) (table : Table Value) :
    Option (Table Value) :=
  table.update .header (fun outer =>
    match outer.get? key.item with
    | none => some (outer.add key ⟨span, .table ⟨.header, []⟩⟩)
    | some ⟨_, .table inner⟩ =>
      if inner.kind = .implied then
        some (outer.replace key ⟨span, .table ⟨.header, inner.entries⟩⟩)
      else none
    | some _ => none) path

/-- Adds a table to an array of tables, which has the place of its first header. -/
def push (path : List Key) (key : Key) (span : Span) (table : Table Value) :
    Option (Table Value) :=
  let item : Located Value := ⟨span, .table ⟨.header, []⟩⟩
  table.update .header (fun outer =>
    match outer.get? key.item with
    | none => some (outer.add key ⟨span, .array true [item]⟩)
    | some ⟨first, .array true items⟩ =>
      some (outer.put key.item ⟨first, .array true (items ++ [item])⟩)
    | some _ => none) path

end Table

end Polyadic.Toml
