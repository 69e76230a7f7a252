import Polyadic.Arities
import Polyadic.Catalogue.Interfaces
import Polyadic.Catalogue.Mappings

/-!
# The catalogue

The declarations that are emitted for every arity, in their order, under the bindings of the arity's
composite key.
-/

namespace Polyadic.Catalogue

open Session (Step Program)

/-- A declaration of the catalogue. -/
inductive Declaration where
  | domain
  | pairInterface
  | pairStructure
  | mappingInterface
  | delegateMapping
  | dictionaryMapping
  | lazyMapping
  | weakLazyMapping
  deriving DecidableEq, Repr

namespace Declaration

/-- The declarations in the order in which they are emitted. -/
def all : List Declaration :=
  [domain, pairInterface, pairStructure, mappingInterface, delegateMapping, dictionaryMapping,
   lazyMapping, weakLazyMapping]

theorem mem_all (declaration : Declaration) : declaration ∈ all := by
  cases declaration <;> decide

/-- The name that is declared. -/
def name : Declaration → String
  | domain => "IDomain"
  | pairInterface => "IKeyValueTuple"
  | pairStructure => "KeyValueTuple"
  | mappingInterface => "IMapping"
  | delegateMapping => "Mapping"
  | dictionaryMapping => "DictionaryMapping"
  | lazyMapping => "LazyMapping"
  | weakLazyMapping => "WeakLazyMapping"

/-- The step that emits the declaration for a composite key. -/
def step (key : CompositeKey) : Declaration → Step
  | domain => domainInterface
  | pairInterface => Catalogue.pairInterface key
  | pairStructure => Catalogue.pairStructure key
  | mappingInterface => Catalogue.mappingInterface
  | delegateMapping => Catalogue.delegateMapping
  | dictionaryMapping => Catalogue.dictionaryMapping key
  | lazyMapping => Catalogue.lazyMapping
  | weakLazyMapping => Catalogue.weakLazyMapping

end Declaration

/-- The step that emits the whole catalogue for a composite key. -/
def ofKey (key : CompositeKey) : Step :=
  .scoped key.scope (Declaration.all.map (·.step key))

/-- The program that emits the catalogue for each arity of a range. -/
def program (arities : Arities) (base : String) : Program :=
  arities.toList.map fun arity => ofKey (.ofBase arity base)

end Polyadic.Catalogue
