import Polyadic.Catalogue.CompositeKey
import Polyadic.Catalogue.Members

/-!
# Mapping classes

The implementations of mappings: by a delegate, by a dictionary, and by values that are made on first
access and kept, firmly or weakly.
-/

namespace Polyadic.Catalogue

open Session (Step)

/-- A mapping that asks a delegate. -/
def delegateMapping : Step :=
  block "public class Mapping<$TKeys$, TValue> : IMapping<$TKeys$, TValue>"
    ([line "public delegate TValue GetDelegate($TKeys keys$)",
      line "GetDelegate _getter",
      block "public Mapping(GetDelegate getter)" [line "_getter = getter"],
      getter "public TValue this[$TKeys keys$]" "_getter($keys$)"] ++
      domainProperties "false" ++
      [block "public bool Contains($TKeys keys$)" [line "return true"],
       infiniteCount] ++
      refusedEnumerators)

/-- The comparer of key tuples, made of one comparer for each component. -/
def tupleComparer (key : CompositeKey) : Step :=
  let comparers := key.components
  block "protected class EqualityComparer : IEqualityComparer<$Tuple<TKeys>$>"
    (comparers.map (fun c => line s!"{c.comparerType} {c.comparer}") ++
      [block "public EqualityComparer($IEqualityComparer<TKeys> comparers$)"
        (comparers.map fun c =>
          line (s!"this.{c.comparer} = ({c.comparer} == null ? " ++
            s!"EqualityComparer<{c.type}>.Default : {c.comparer})")),
       block "public bool Equals($Tuple<TKeys>$ a, $Tuple<TKeys>$ b)"
        [line ("return " ++ String.intercalate " && " (comparers.mapIdx fun i c =>
          s!"{c.comparer}.Equals(a.Item{i + 1}, b.Item{i + 1})"))],
       block "public int GetHashCode($Tuple<TKeys>$ obj)"
        [line s!"int result = {key.arity}",
         block "unchecked" (comparers.mapIdx fun i c =>
          line s!"result = result * 23 + {c.comparer}.GetHashCode(obj.Item{i + 1})"),
         line "return result"]])

/-- The members of a dictionary that take the key components instead of their tuple. -/
def componentMembers : List Step :=
  [block "public bool ContainsKey($TKeys keys$)" [line "return base.ContainsKey($keytuple$)"],
   block "public bool Remove($TKeys keys$)" [line "return base.Remove($keytuple$)"],
   block "public void Add($TKeys keys$, TValue value)" [line "base.Add($keytuple$, value)"],
   block "public bool TryGetValue($TKeys keys$, out TValue value)"
    [line "return base.TryGetValue($keytuple$, out value)"],
   block "public TValue this[$TKeys keys$]"
    [block "get" [line "return base[$keytuple$]"],
     block "set" [line "base[$keytuple$] = value"]]]

/-- A finite mapping that is kept in a dictionary. -/
def dictionaryMapping (key : CompositeKey) : Step :=
  let baseComparer :=
    if key.isTuple then "new EqualityComparer($comparers$)" else "$comparers$"
  block ("public class DictionaryMapping<$TKeys$, TValue> : " ++
      "Dictionary<$Tuple<TKeys>$, TValue>, IMapping<$TKeys$, TValue>")
    ((if key.isTuple then [tupleComparer key] else []) ++
      [block "public bool Contains($TKeys keys$)" [line "return this.ContainsKey($keytuple$)"]] ++
      domainProperties "true" ++
      [.emptyBlock "public DictionaryMapping() : base()",
       .scoped (.ofList [("base comparer", baseComparer)])
        [.emptyBlock
          "public DictionaryMapping($IEqualityComparer<TKeys> comparers$) : base ($base comparer$)"],
       block "public new IEnumerator<IKeyValueTuple<$TKeys$, TValue>> GetEnumerator()"
        [block "for(var e = base.GetEnumerator(); e.MoveNext(); )"
          [line "yield return new KeyValueTuple<$TKeys$, TValue>(e.Current)"]],
       block "IEnumerator<$Tuple<TKeys>$> IEnumerable<$Tuple<TKeys>$>.GetEnumerator()"
        [line "return this.Keys.GetEnumerator()"],
       block "IEnumerator IEnumerable.GetEnumerator()" [line "return this.Keys.GetEnumerator()"]] ++
      (if key.isTuple then componentMembers else []))

/-- The delegates and fields of a lazy mapping whose dictionary stores `stored`. -/
def lazyFields (stored : String) : List Step :=
  [line "public delegate TValue InstantiateDelegate($TKeys keys$)",
   line "public delegate bool ContainsDelegate($TKeys keys$)",
   line "protected InstantiateDelegate _instantiator",
   line "protected ContainsDelegate _contains",
   line s!"protected DictionaryMapping<$TKeys$, {stored}> _inner"]

/-- What a lazy mapping knows of its domain: at most a predicate. -/
def lazyDomain : List Step :=
  [block "public bool Contains($TKeys keys$)"
    [block "if(_contains == null)" [line "return true"],
     block "else" [line "return _contains($keys$)"]],
   infiniteCount] ++
  domainProperties "false" ++
  refusedEnumerators

/-- The constructors of a lazy mapping; `extra` follows in the one without comparers. -/
def lazyConstructors (name stored : String) (extra : List Step) : List Step :=
  let start := s!"public {name}(InstantiateDelegate instantiator, ContainsDelegate contains"
  let fields := [line "_instantiator = instantiator", line "_contains = contains"]
  [block s!"{start} = null)"
    (line s!"_inner = new DictionaryMapping<$TKeys$, {stored}>()" :: fields ++ extra),
   block (start ++ ", $IEqualityComparer<TKeys> comparers$)")
    (line s!"_inner = new DictionaryMapping<$TKeys$, {stored}>($comparers$)" :: fields)]

/-- A mapping that makes a value on first access and keeps it. -/
def lazyMapping : Step :=
  block "public class LazyMapping<$TKeys$, TValue> : IMapping<$TKeys$, TValue>"
    (lazyFields "TValue" ++
      lazyConstructors "LazyMapping" "TValue" [] ++
      lazyDomain ++
      [block "public TValue this[$TKeys keys$]"
        [block "get"
          [line "TValue value",
           block "if(_inner.TryGetValue($keys$, out value))" [line "return value"],
           block "else"
            [line "_inner[$keys$] = value = _instantiator($keys$)",
             line "return value"]]],
       block "public bool TryGetExisting($TKeys keys$, out TValue value)"
        [line "return _inner.TryGetValue($keys$, out value)"]])

/-- The sweep that drops the entries whose values are gone. -/
def weakCleanup : Step :=
  block "protected override void Cleanup()"
    [line "$Tuple<TKeys>$[] keys",
     block "lock(_inner)"
      [line "keys = ((IEnumerable<$Tuple<TKeys>$>) _inner).ToArray()"],
     block "foreach(var key in keys)"
      [block "lock(_inner)"
        [line "WeakReference r",
         line "object v",
         block "if(_inner.TryGetValue(key, out r) && !r.IsAlive)" [line "_inner.Remove(key)"]]]]

/-- A mapping that makes a value on first access and keeps it as long as something else does. -/
def weakLazyMapping : Step :=
  block ("public class WeakLazyMapping<$TKeys$, TValue> : " ++
      "WeakMapping, IMapping<$TKeys$, TValue> where TValue : class")
    (lazyFields "WeakReference" ++
      lazyConstructors "WeakLazyMapping" "WeakReference" [line "AddToCleanupList(this)"] ++
      [weakCleanup] ++
      lazyDomain ++
      [block "public TValue this[$TKeys keys$]"
        [block "get"
          [line "WeakReference r",
           line "TValue v",
           block "lock(_inner)"
            [block "if(_inner.TryGetValue($keys$, out r))"
              [line "v = r.Target as TValue",
               block "if(v != null)" [line "return v"]],
             line "_inner[$keys$] = new WeakReference(v = _instantiator($keys$))",
             line "return v"]]],
       block "public bool TryGetExisting($TKeys keys$, out TValue value)"
        [line "WeakReference r",
         block "lock(_inner)"
          [block "if(_inner.TryGetValue($keys$, out r))"
            [line "value = r.Target as TValue",
             line "return value != null"],
           line "value = null",
           line "return false"]]])

end Polyadic.Catalogue
