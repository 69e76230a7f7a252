import Polyadic.Catalogue.CompositeKey
import Polyadic.Catalogue.Members

/-!
# Interfaces and pairs

The interfaces of domains, of pairs of keys and value, and of mappings, and the structure of pairs.
-/

namespace Polyadic.Catalogue

open Session (Step)

/-- The interface of a set of keys. -/
def domainInterface : Step :=
  block "public interface IDomain<$TKeys$> : IEnumerable<$Tuple<TKeys>$>"
    [line "bool Contains($TKeys keys$)",
     readable "int Count",
     readable "bool IsFinite",
     readable "bool IsNumerable"]

/-- The interface of a pair of keys and value. -/
def pairInterface (key : CompositeKey) : Step :=
  block "public interface IKeyValueTuple<$TKeys$, out TValue>"
    (key.components.map (fun c => readable s!"{c.type} {c.property}") ++
      [readable "TValue Value"])

/-- Where a pair finds the key component with an index. -/
def componentSource (key : CompositeKey) (index : Nat) : String :=
  if key.isTuple then s!"inner.Key.Item{index}" else "inner.Key"

/-- The structure of a pair of keys and value. -/
def pairStructure (key : CompositeKey) : Step :=
  block "public struct KeyValueTuple<$TKeys$, TValue> : IKeyValueTuple<$TKeys$, TValue>"
    ([line "KeyValuePair<$Tuple<TKeys>$, TValue> inner",
      block "public KeyValueTuple(KeyValuePair<$Tuple<TKeys>$, TValue> inner)"
        [line "this.inner = inner"]] ++
      key.components.mapIdx (fun i c =>
        getter s!"public {c.type} {c.property}" (componentSource key (i + 1))) ++
      [getter "public TValue Value" "inner.Value"])

/-- The interface of a mapping. -/
def mappingInterface : Step :=
  block ("public interface IMapping<$TKeys$, out TValue> : " ++
      "IEnumerable<IKeyValueTuple<$TKeys$, TValue>>, IDomain<$TKeys$>")
    [readable "TValue this[$TKeys keys$]",
     line "IEnumerator<IKeyValueTuple<$TKeys$, TValue>> GetEnumerator()"]

end Polyadic.Catalogue
