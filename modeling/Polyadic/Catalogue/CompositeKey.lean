import Polyadic.Naming
import Polyadic.Template.Scope

/-!
# Composite keys

The names that the declarations of one arity use for their key. A single key takes its names from
the base phrase as it is; several keys are numbered from one. The names are offered to templates as
bindings, so that one template serves every arity.
-/

namespace Polyadic

/-- The names of one key component. -/
structure KeyComponent where
  type : String
  parameter : String
  property : String
  comparer : String
  deriving DecidableEq, Repr

/-- The key components of the declarations of one arity. -/
structure CompositeKey where
  components : List KeyComponent
  deriving DecidableEq, Repr

namespace KeyComponent

/-- The component whose names come of a phrase. -/
def ofPhrase (phrase comparer : String) : KeyComponent where
  type := "T" ++ Naming.pascal phrase
  parameter := Naming.parameterName phrase
  property := Naming.typeName phrase
  comparer := comparer

/-- The component with a number. -/
def numbered (base : String) (index : Nat) : KeyComponent :=
  ofPhrase (base ++ toString index) ("comparer" ++ toString index)

/-- The type of the component's comparer. -/
def comparerType (component : KeyComponent) : String :=
  s!"IEqualityComparer<{component.type}>"

end KeyComponent

namespace CompositeKey

/-- The key of an arity, named after a base phrase. -/
def ofBase (arity : Nat) (base : String) : CompositeKey where
  components :=
    if arity = 1 then [.ofPhrase base "comparer"]
    else (List.range' 1 arity).map (.numbered base)

/-- How many components the key has. -/
def arity (key : CompositeKey) : Nat :=
  key.components.length

/-- Whether the components are stored together in a tuple. -/
def isTuple (key : CompositeKey) : Bool :=
  1 < key.arity

/-- The names of the type parameters. -/
def types (key : CompositeKey) : List String :=
  key.components.map (·.type)

/-- The names of the parameters. -/
def parameters (key : CompositeKey) : List String :=
  key.components.map (·.parameter)

/-- The names of the properties. -/
def properties (key : CompositeKey) : List String :=
  key.components.map (·.property)

/-- The names of the comparers. -/
def comparers (key : CompositeKey) : List String :=
  key.components.map (·.comparer)

/-- A list of texts as it stands between parentheses. -/
def listed (texts : List String) : String :=
  String.intercalate ", " texts

/-- The components of a key, each written by `f`, as a list. -/
def listing (key : CompositeKey) (f : KeyComponent → String) : String :=
  listed (key.components.map f)

/-- The bindings under which the declarations of the key are emitted. -/
def scope (key : CompositeKey) : Template.Scope :=
  let types := listed key.types
  let parameters := listed key.parameters
  .ofList
    [("TKeys", types),
     ("TKeys keys", key.listing fun c => s!"{c.type} {c.parameter}"),
     ("Tuple<TKeys>", if key.isTuple then s!"Tuple<{types}>" else types),
     ("keytuple", if key.isTuple then "new $Tuple<TKeys>$($keys$)" else parameters),
     ("keys", parameters),
     ("IEqualityComparer<TKeys>", key.listing fun c => c.comparerType),
     ("IEqualityComparer<TKeys> comparers", key.listing fun c => s!"{c.comparerType} {c.comparer}"),
     ("comparers", listed key.comparers)]

end CompositeKey

end Polyadic
