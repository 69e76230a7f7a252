import Polyadic.Proofs.Catalogue.Outline

/-!
# Distinct names

What the catalogue declares together is a series of names of the key, perhaps with other names that stand in
the templates (`Declaration.groups`, `declared_ofKey`). The names of a series are numbered, so they are different
from each other and from the others, unless there is only one component: its names have no number, and they are
names of the catalogue as well if the base is (`declared_nodup_iff`).
-/

namespace Polyadic

namespace Catalogue

open Session (Step)
open Template (IsInert Scopes)
open CompositeKey (ofBase)

/-! ## Members -/

/-- What steps bring to a type as its members: the groups that they declare, and the headers of properties. -/
structure Brings (steps : List Step) (groups : List Group) (headers : List String) : Prop where
  fits : fitsAll steps = true
  outline : outlineAll steps = groups
  owned : propertyHeadersAll steps = headers
  plain : ∀ header ∈ headers, '$' ∉ Text.chars header

instance (steps : List Step) (groups : List Group) (headers : List String) :
    Decidable (Brings steps groups headers) :=
  decidable_of_iff (fitsAll steps = true ∧ outlineAll steps = groups ∧ propertyHeadersAll steps = headers ∧
      ∀ header ∈ headers, '$' ∉ Text.chars header)
    ⟨fun ⟨fits, outline, owned, plain⟩ => ⟨fits, outline, owned, plain⟩,
      fun ⟨fits, outline, owned, plain⟩ => ⟨fits, outline, owned, plain⟩⟩

section Member

variable {header template : String}

lemma declaring?_of_plain (untyped : declaresType template = false) (plain : '$' ∉ template.toList) :
    declaring? template = none := by
  have absent (c : Char) : ¬ (c :: "$TKeys keys$".toList <:+: template.toList) := by
    intro within
    refine plain (within.subset (List.mem_cons_of_mem c ?_))
    decide +kernel
  rw [declaring?, untyped, if_neg Bool.false_ne_true, List.find?_eq_none, Text.chars_eq, Text.chars_eq]
  intro brackets _
  rw [decide_eq_true_eq]
  exact absent brackets.opening

lemma declaresType_of_head {c : Char} (h : template.toList.head? = some c) (other : c ≠ 'p') :
    declaresType template = false := by
  obtain ⟨rest, h⟩ := List.head?_eq_some_iff.mp h
  simp [declaresType, Text.chars_eq, h, List.isPrefixOf, other.symm]

lemma head?_append {text : String} {c : Char} (h : text.toList.head? = some c) (text' : String) :
    (text ++ text').toList.head? = some c := by
  rw [String.toList_append, List.head?_append, h]
  rfl

/-- A header without names declares none, whatever stands behind it. -/
lemma outlineBy_of_none (untyped : declaresType header = false) (none : declaring? header = none)
    (body : List Step) : headerFits header body = true ∧ outlineBy header body = [] := by
  constructor
  · rw [headerFits, none, untyped]
    rfl
  · rw [outlineBy, listed?, none, untyped]
    rfl

end Member

namespace Brings

variable {header template : String} {headers headers' : List String} {steps steps' body : List Step}
  {groups groups' : List Group}

lemma nil : Brings [] [] [] :=
  ⟨rfl, rfl, rfl, nofun⟩

lemma append (h : Brings steps groups headers) (h' : Brings steps' groups' headers') :
    Brings (steps ++ steps') (groups ++ groups') (headers ++ headers') := by
  refine ⟨?_, ?_, ?_, List.forall_mem_append.mpr ⟨h.plain, h'.plain⟩⟩
  · rw [fitsAll_append, h.fits, h'.fits]
    rfl
  · rw [outlineAll_append, h.outline, h'.outline]
  · rw [propertyHeadersAll_append, h.owned, h'.owned]

lemma map {α : Type} {items : List α} {step : α → Step} {headers : α → List String}
    (h : ∀ item ∈ items, Brings [step item] [] (headers item)) :
    Brings (items.map step) [] (items.flatMap headers) := by
  induction items with
  | nil => exact nil
  | cons item items ih =>
    obtain ⟨hitem, hitems⟩ := List.forall_mem_cons.mp h
    exact hitem.append (ih hitems)

lemma mapIdx {α : Type} {items : List α} {step : Nat → α → Step} {headers : α → List String}
    (h : ∀ i, ∀ item ∈ items, Brings [step i item] [] (headers item)) :
    Brings (items.mapIdx step) [] (items.flatMap headers) := by
  induction items generalizing step with
  | nil => exact nil
  | cons item items ih =>
    rw [List.mapIdx_cons]
    exact (h 0 item List.mem_cons_self).append (ih fun i item hitem => h (i + 1) item (.tail _ hitem))

lemma line (untyped : declaresType template = false) (none : declaring? template = none) :
    Brings [line template] [] [] := by
  obtain ⟨fits, outline⟩ := outlineBy_of_none untyped none []
  refine ⟨?_, ?_, rfl, nofun⟩
  · rw [Catalogue.line, fitsAll, Catalogue.fits, fits]
    rfl
  · rw [Catalogue.line, outlineAll, Catalogue.outline, outline]
    rfl

/-- A member without names of the key. -/
lemma block (untyped : declaresType header = false) (none : declaring? header = none)
    (plain : declaresProperty header = true → '$' ∉ Text.chars header) :
    Brings [block header body] [] (if declaresProperty header then [header] else []) := by
  obtain ⟨fits, outline⟩ := outlineBy_of_none untyped none body
  refine ⟨?_, ?_, List.append_nil _, ?_⟩
  · rw [Catalogue.block, fitsAll, Catalogue.fits, fits, untyped]
    rfl
  · rw [Catalogue.block, outlineAll, Catalogue.outline, outline, untyped]
    rfl
  · split
    · rename_i property
      exact List.forall_mem_singleton.mpr (plain property)
    · exact List.forall_mem_nil _

lemma property (property : declaresProperty header = true) (plain : '$' ∉ Text.chars header) :
    Brings [Catalogue.block header body] [] [header] := by
  have untyped : declaresType header = false := by
    rw [declaresProperty, Bool.and_eq_true, Bool.not_eq_true'] at property
    exact property.1
  have unlisted := declaring?_of_plain untyped (Text.chars_eq header ▸ plain)
  have member : Brings [Catalogue.block header body] [] (if declaresProperty header then [header] else []) :=
    block untyped unlisted fun _ => plain
  rwa [if_pos property] at member

lemma property_of_chars (untyped : declaresType header = false)
    (chars : ∀ c ∈ header.toList, c.isAlphanum = true ∨ c = '@' ∨ c = ' ') :
    Brings [Catalogue.block header body] [] [header] := by
  apply property
  · rw [declaresProperty, untyped, Bool.not_false, Bool.true_and, List.all_eq_true, Text.chars_eq]
    intro c hc
    rw [Bool.and_eq_true, bne_iff_ne, bne_iff_ne]
    constructor <;> rintro rfl <;> exact absurd (chars _ hc) (by decide)
  · rw [Text.chars_eq]
    exact fun hc => absurd (chars _ hc) (by decide)

/-- A type declares what it lists, its properties together, and what its members declare. -/
lemma type (members : Brings body groups headers) (header : String) (listed : List Group)
    (names : List (List Char)) (typed : declaresType header = true ∧
      (declaring? header).all (·.fits header) = true ∧ (listed? header).toList = listed)
    (names_eq : headers.map (fun header => entryName (Text.chars header)) = names) :
    Brings [Catalogue.block header body] (listed ++ ⟨none, names⟩ :: groups) [] := by
  obtain ⟨typed, fitting, list⟩ := typed
  subst names_eq
  obtain ⟨fits, outline, owned, plain⟩ := members
  have plain : (headers.all fun header => '$' ∉ Text.chars header) = true :=
    List.all_eq_true.mpr fun header hmem => decide_eq_true (plain header hmem)
  refine ⟨?_, ?_, ?_, nofun⟩
  · rw [Catalogue.block, fitsAll, Catalogue.fits, headerFits, fitting, typed, owned, plain, fits]
    rfl
  · show (outlineBy header body ++ if declaresType header then outlineAll body else []) ++ [] = _
    rw [outlineBy, list, typed, owned, outline]
    exact (List.append_nil _).trans (List.append_assoc _ _ _)
  · rw [Catalogue.block, propertyHeadersAll, propertyHeaders, declaresProperty, typed]
    rfl

end Brings

/-! ## Groups -/

/-- Names of a key with names of the catalogue. -/
def keyed (series : Series) (others : List String) : Group :=
  ⟨some series, others.map String.toList⟩

/-- Names of the catalogue alone. -/
def unkeyed (others : List String) : Group :=
  ⟨none, others.map String.toList⟩

/-- The groups of names that a declaration declares together, for a key that is a tuple or one that is not. -/
def Declaration.groups (tuple : Bool) : Declaration → List Group
  | domain => [keyed .types [], unkeyed ["Count", "IsFinite", "IsNumerable"], keyed .parameters []]
  | pairInterface | pairStructure => [keyed .types ["TValue"], keyed .properties ["Value"]]
  | mappingInterface => [keyed .types ["TValue"], unkeyed [], keyed .parameters []]
  | delegateMapping => [keyed .types ["TValue"], unkeyed ["IsFinite", "IsNumerable", "Count"],
      keyed .parameters [], keyed .parameters [], keyed .parameters []]
  | dictionaryMapping => [keyed .types ["TValue"], unkeyed ["IsFinite", "IsNumerable"]] ++
      (if tuple then [unkeyed []] else []) ++ [keyed .parameters []] ++
      (if tuple then [keyed .parameters [], keyed .parameters [], keyed .parameters ["value"],
        keyed .parameters ["value"], keyed .parameters ["value"]] else [])
  | lazyMapping => [keyed .types ["TValue"], unkeyed ["Count", "IsFinite", "IsNumerable"],
      keyed .parameters [], keyed .parameters [], keyed .parameters [], keyed .parameters ["value"],
      keyed .parameters ["value"]]
  | weakLazyMapping => [keyed .types ["TValue"], unkeyed ["Count", "IsFinite", "IsNumerable"],
      keyed .parameters [], keyed .parameters [], keyed .parameters [], keyed .parameters ["r", "v"],
      keyed .parameters ["value", "r"]]

/-! ## Declarations -/

/-- The declarations that are the same for all keys. -/
lemma brings_fixed :
    Brings [domainInterface] (Declaration.domain.groups false) [] ∧
    Brings [mappingInterface] (Declaration.mappingInterface.groups false) [] ∧
    Brings [delegateMapping] (Declaration.delegateMapping.groups false) [] ∧
    Brings [lazyMapping] (Declaration.lazyMapping.groups false) [] ∧
    Brings [weakLazyMapping] (Declaration.weakLazyMapping.groups false) [] := by
  refine ⟨?_, ?_, ?_, ?_, ?_⟩
  all_goals decide +kernel

section Pair

variable {base : String} (plain : Naming.IsPlain base.toList) {arity : Nat}

include plain

section Component

variable {c : KeyComponent} (hc : c ∈ (ofBase arity base).components) {body : List Step}

include hc

lemma words_component :
    (∃ rest, c.type.toList = 'T' :: rest) ∧ IsWord c.type.toList ∧ IsWord c.property.toList := by
  obtain ⟨number, digits, rfl⟩ := CompositeKey.mem_components hc
  have numbered := CompositeKey.isPlain_append_number plain digits
  exact ⟨⟨_, KeyComponent.toList_type⟩, isWord_type numbered _, (property_ofPhrase numbered _).1⟩

lemma brings_component : Brings [block s!"{c.type} {c.property}" body] [] [s!"{c.type} {c.property}"] := by
  obtain ⟨⟨rest, hrest⟩, type, property⟩ := words_component plain hc
  have head : c.type.toList.head? = some 'T' := hrest ▸ rfl
  have untyped : declaresType s!"{c.type} {c.property}" = false :=
    declaresType_of_head (head?_append (head?_append head _) _) (by decide)
  exact .property_of_chars untyped (typed_chars type property)

lemma brings_publicComponent :
    Brings [block s!"public {c.type} {c.property}" body] [] [s!"public {c.type} {c.property}"] := by
  obtain ⟨⟨rest, hrest⟩, type, property⟩ := words_component plain hc
  have apart : s!"public {c.type} {c.property}" = "public " ++ (c.type ++ " " ++ c.property) := by
    show "public " ++ c.type ++ " " ++ c.property = _
    rw [String.append_assoc, String.append_assoc, String.append_assoc]
  have untyped : declaresType s!"public {c.type} {c.property}" = false := by
    have text : (s!"public {c.type} {c.property}").toList =
        "public ".toList ++ 'T' :: (rest ++ (" " ++ c.property).toList) := by
      rw [apart, String.append_assoc, String.toList_append, String.toList_append, hrest]
      rfl
    simp [declaresType, Text.chars_eq, text, List.isPrefixOf]
  have access : ∀ d ∈ "public ".toList, d.isAlphanum = true ∨ d = '@' ∨ d = ' ' := by simp
  apply Brings.property_of_chars untyped
  rw [apart, String.toList_append, List.forall_mem_append]
  exact ⟨access, typed_chars type property⟩

end Component

lemma names_components (front : KeyComponent → String) :
    ((ofBase arity base).components.flatMap fun c => [front c ++ " " ++ c.property]).map
      (fun header => entryName (Text.chars header)) = Series.properties.names base arity := by
  rw [← List.map_eq_flatMap, CompositeKey.components_ofBase, List.map_map, List.map_map]
  refine List.map_congr_left fun number hnumber => ?_
  have digits := CompositeKey.isDigit_of_mem_numbers hnumber
  obtain ⟨word, name⟩ := property_ofPhrase (CompositeKey.isPlain_append_number plain digits)
    ("comparer" ++ String.ofList number)
  show entryName (Text.chars (front _ ++ " " ++ (KeyComponent.ofPhrase _ _).property)) = _
  rw [Text.chars_eq, entryName_typed _ word, name, String.toList_append, String.toList_ofList,
    Naming.pascalChars_append_number digits]
  rfl

lemma names_pair (front : KeyComponent → String) {last : String} (h : entryName (Text.chars last) = "Value".toList) :
    ((ofBase arity base).components.flatMap (fun c => [front c ++ " " ++ c.property]) ++ [last]).map
      (fun header => entryName (Text.chars header)) = Series.properties.names base arity ++ ["Value".toList] := by
  rw [List.map_append, names_components plain front, List.map_singleton, h]

lemma brings_pairInterface : Brings [pairInterface (ofBase arity base)]
    [keyed .types ["TValue"], ⟨none, Series.properties.names base arity ++ ["Value".toList]⟩] [] := by
  have components : Brings ((ofBase arity base).components.map fun c => readable s!"{c.type} {c.property}") []
      ((ofBase arity base).components.flatMap fun c => [c.type ++ " " ++ c.property]) :=
    .map fun c hc => brings_component plain hc
  have value : Brings [readable "TValue Value"] [] ["TValue Value"] :=
    .property (by decide +kernel) (by decide +kernel)
  exact (components.append value).type "public interface IKeyValueTuple<$TKeys$, out TValue>"
    [keyed .types ["TValue"]] _ (by decide +kernel) (names_pair plain _ (by decide +kernel))

lemma brings_pairStructure : Brings [pairStructure (ofBase arity base)]
    [keyed .types ["TValue"], ⟨none, Series.properties.names base arity ++ ["Value".toList]⟩] [] := by
  have construction : Brings [line "KeyValuePair<$Tuple<TKeys>$, TValue> inner",
      block "public KeyValueTuple(KeyValuePair<$Tuple<TKeys>$, TValue> inner)" [line "this.inner = inner"]]
      [] [] := by
    decide +kernel
  have components : Brings ((ofBase arity base).components.mapIdx fun i c =>
      getter s!"public {c.type} {c.property}" (componentSource (ofBase arity base) (i + 1))) []
      ((ofBase arity base).components.flatMap fun c => ["public " ++ c.type ++ " " ++ c.property]) :=
    .mapIdx fun i c hc => brings_publicComponent plain hc
  have value : Brings [getter "public TValue Value" "inner.Value"] [] ["public TValue Value"] :=
    .property (by decide +kernel) (by decide +kernel)
  exact ((construction.append components).append value).type
    "public struct KeyValueTuple<$TKeys$, TValue> : IKeyValueTuple<$TKeys$, TValue>" [keyed .types ["TValue"]] _
    (by decide +kernel) (names_pair plain _ (by decide +kernel))

end Pair

lemma brings_tupleComparer {key : CompositeKey} (inert : ∀ c ∈ key.components, c.IsInert) :
    Brings [tupleComparer key] [unkeyed []] [] := by
  have field (c : KeyComponent) (hc : c ∈ key.components) :
      Brings [line s!"{c.comparerType} {c.comparer}"] [] [] := by
    have h := inert c hc
    have text : IsInert s!"{c.comparerType} {c.comparer}" :=
      .append (.append h.comparerType (.of_chars rfl rfl)) h.comparer
    have type : c.comparerType.toList.head? = some 'I' := head?_append (head?_append rfl _) _
    have untyped : declaresType s!"{c.comparerType} {c.comparer}" = false :=
      declaresType_of_head (head?_append (head?_append type _) _) (by decide)
    exact .line untyped (declaring?_of_plain untyped fun hc => (Template.ne_of_isInert (text _ hc)).1 rfl)
  have fields := Brings.map field
  rw [List.flatMap_eq_nil_iff.mpr fun _ _ => rfl] at fields
  -- None of the members takes the components of the key one by one, and none is a property.
  have construction (body : List Step) :
      Brings [block "public EqualityComparer($IEqualityComparer<TKeys> comparers$)" body] [] [] :=
    .block (by decide +kernel) (by decide +kernel) (by decide +kernel)
  have equals (body : List Step) :
      Brings [block "public bool Equals($Tuple<TKeys>$ a, $Tuple<TKeys>$ b)" body] [] [] :=
    .block (by decide +kernel) (by decide +kernel) (by decide +kernel)
  have hash (body : List Step) : Brings [block "public int GetHashCode($Tuple<TKeys>$ obj)" body] [] [] :=
    .block (by decide +kernel) (by decide +kernel) (by decide +kernel)
  exact (fields.append ((construction _).append ((equals _).append (hash _)))).type
    "protected class EqualityComparer : IEqualityComparer<$Tuple<TKeys>$>" [] [] (by decide +kernel) rfl

/-- The members of a dictionary, but for the comparer of its tuples. -/
lemma brings_dictionaryMembers : ∀ tuple : Bool, Brings
    ([block "public bool Contains($TKeys keys$)" [line "return this.ContainsKey($keytuple$)"]] ++
      domainProperties "true" ++
      [.emptyBlock "public DictionaryMapping() : base()",
       .scoped (.ofList [("base comparer", if tuple then "new EqualityComparer($comparers$)" else "$comparers$")])
        [.emptyBlock
          "public DictionaryMapping($IEqualityComparer<TKeys> comparers$) : base ($base comparer$)"],
       block "public new IEnumerator<IKeyValueTuple<$TKeys$, TValue>> GetEnumerator()"
        [block "for(var e = base.GetEnumerator(); e.MoveNext(); )"
          [line "yield return new KeyValueTuple<$TKeys$, TValue>(e.Current)"]],
       block "IEnumerator<$Tuple<TKeys>$> IEnumerable<$Tuple<TKeys>$>.GetEnumerator()"
        [line "return this.Keys.GetEnumerator()"],
       block "IEnumerator IEnumerable.GetEnumerator()" [line "return this.Keys.GetEnumerator()"]] ++
      (if tuple then componentMembers else []))
    ([keyed .parameters []] ++ if tuple then [keyed .parameters [], keyed .parameters [],
      keyed .parameters ["value"], keyed .parameters ["value"], keyed .parameters ["value"]] else [])
    ["public bool IsFinite", "public bool IsNumerable"] := by
  decide +kernel

lemma brings_dictionaryMapping {key : CompositeKey} (inert : ∀ c ∈ key.components, c.IsInert) :
    Brings [dictionaryMapping key] (Declaration.dictionaryMapping.groups key.isTuple) [] := by
  have comparer := brings_tupleComparer inert
  unfold dictionaryMapping
  generalize tupleComparer key = step at comparer
  generalize key.isTuple = tuple
  have comparer : Brings (if tuple then [step] else []) (if tuple then [unkeyed []] else []) [] := by
    cases tuple with
    | false => exact .nil
    | true => exact comparer
  have type := (comparer.append (brings_dictionaryMembers tuple)).type
    ("public class DictionaryMapping<$TKeys$, TValue> : " ++
      "Dictionary<$Tuple<TKeys>$, TValue>, IMapping<$TKeys$, TValue>")
    [keyed .types ["TValue"]] (["IsFinite", "IsNumerable"].map String.toList) (by decide +kernel)
    (by decide +kernel)
  cases tuple with
  | false => exact type
  | true => exact type

/-- What a declaration declares together for a key are its groups, with the names of the key put in. -/
lemma declared_step {base : String} (plain : Naming.IsPlain base.toList) {arity : Nat} (positive : 0 < arity)
    {scopes : Scopes} (binds : Binds scopes (ofBase arity base)) (declaration : Declaration) :
    declaredAll scopes [declaration.step (ofBase arity base)] =
      (declaration.groups (ofBase arity base).isTuple).map (·.names base arity) := by
  have inert := CompositeKey.isInert_components plain arity
  have declares {steps : List Step} {groups : List Group} (brings : Brings steps groups []) :
      declaredAll scopes steps = groups.map (·.names base arity) := by
    rw [declaredAll_eq plain positive steps binds brings.fits, brings.outline]
  cases declaration with
  | domain => exact declares brings_fixed.1
  | pairInterface =>
    have pair : declaredAll scopes [pairInterface (ofBase arity base)] = _ := declares (brings_pairInterface plain)
    exact pair
  | pairStructure =>
    have pair : declaredAll scopes [pairStructure (ofBase arity base)] = _ := declares (brings_pairStructure plain)
    exact pair
  | mappingInterface => exact declares brings_fixed.2.1
  | delegateMapping => exact declares brings_fixed.2.2.1
  | dictionaryMapping => exact declares (brings_dictionaryMapping inert)
  | lazyMapping => exact declares brings_fixed.2.2.2.1
  | weakLazyMapping => exact declares brings_fixed.2.2.2.2

lemma declaredAll_map {α : Type} (scopes : Scopes) (step : α → Step) (items : List α) :
    declaredAll scopes (items.map step) = items.flatMap fun item => declaredAll scopes [step item] := by
  induction items with
  | nil => rfl
  | cons item items ih =>
    rw [List.map_cons, declaredAll, ih, List.flatMap_cons, declaredAll, declaredAll, List.append_nil]

/-- What the catalogue declares together for a key are the groups of its declarations. -/
theorem declared_ofKey {base : String} (plain : Naming.IsPlain base.toList) {arity : Nat} (positive : 0 < arity) :
    declared [] (ofKey (ofBase arity base)) =
      (Declaration.all.flatMap (·.groups (ofBase arity base).isTuple)).map (·.names base arity) := by
  show declaredAll [(ofBase arity base).scope] _ = _
  rw [declaredAll_map, List.map_flatMap]
  exact List.flatMap_congr fun declaration _ =>
    declared_step plain positive (binds_scope plain arity) declaration

/-! ## Distinct names -/

/-- The names of the catalogue that stand beside a series. -/
def Series.rivals : Series → List String
  | types => ["TValue"]
  | properties => ["Value"]
  | parameters => ["value", "r", "v"]

/-- The other names of a group are different, have no numbers, and are among the rivals of its series. -/
structure Group.IsUsual (group : Group) : Prop where
  distinct : group.others.Nodup
  unnumbered : ∀ other ∈ group.others, other.getLast?.any Char.isDigit = false
  rivals : ∀ series, group.series? = some series → group.others ⊆ series.rivals.map String.toList

lemma isUsual_groups (declaration : Declaration) (tuple : Bool) :
    ∀ group ∈ declaration.groups tuple, group.IsUsual := by
  have checked : ∀ tuple : Bool, ∀ declaration ∈ Declaration.all, ∀ group ∈ declaration.groups tuple,
      group.others.Nodup ∧ (∀ other ∈ group.others, other.getLast?.any Char.isDigit = false) ∧
        ∀ series ∈ group.series?.toList, ∀ other ∈ group.others, other ∈ series.rivals.map String.toList := by
    decide +kernel
  intro group hgroup
  obtain ⟨distinct, unnumbered, rivals⟩ := checked tuple declaration declaration.mem_all group hgroup
  exact ⟨distinct, unnumbered, fun series found => rivals series (Option.mem_toList.mpr found)⟩

section Rivals

variable {base : String} {arity : Nat}

lemma Group.IsUsual.nodup_names_iff {group : Group} (h : group.IsUsual) :
    (group.names base arity).Nodup ↔
      ∀ series, group.series? = some series → arity = 1 → series.stem base ∉ group.others := by
  rw [Group.names]
  cases group.series? with
  | none => exact iff_of_true h.distinct nofun
  | some series =>
    refine (CompositeKey.nodup_numbered h.distinct h.unnumbered).trans ⟨?_, fun apart => apart series rfl⟩
    rintro apart _ ⟨⟩
    exact apart

/-- If a name of the key is a rival, so is its parameter. -/
lemma camel_of_stem {series : Series} (h : series.stem base ∈ series.rivals.map String.toList) :
    Naming.camel base ∈ Series.parameters.rivals := by
  have capital (name : Naming.pascalChars base.toList = "Value".toList) : Naming.camel base = "value" := by
    rw [Naming.camel, Naming.camelChars, name]
    decide +kernel
  cases series with
  | types =>
    have type : 'T' :: Naming.pascalChars base.toList = 'T' :: "Value".toList := List.mem_singleton.mp h
    rw [capital (List.cons_inj_right 'T' |>.mp type)]
    exact List.mem_cons_self
  | properties =>
    rw [capital (List.mem_singleton.mp h)]
    exact List.mem_cons_self
  | parameters =>
    obtain ⟨name, hname, same⟩ := List.mem_map.mp h
    rwa [String.toList_inj.mp (same.trans (Naming.toList_camel base).symm)] at hname

/-- The names that are declared together are different unless there is one component whose parameter has a name
of the catalogue. -/
theorem declared_nodup_iff (plain : Naming.IsPlain base.toList) (positive : 0 < arity) :
    (∀ names ∈ declared [] (ofKey (ofBase arity base)), names.Nodup) ↔
      (arity = 1 → Naming.camel base ∉ Series.parameters.rivals) := by
  rw [declared_ofKey plain positive, List.forall_mem_map, List.forall_mem_flatMap]
  constructor
  · intro distinct single rival
    have apart (declaration : Declaration) (others : List String)
        (hgroup : keyed .parameters others ∈ declaration.groups (ofBase arity base).isTuple) :
        Naming.camel base ∉ others := by
      intro mem
      have usual := isUsual_groups declaration _ _ hgroup
      refine usual.nodup_names_iff.mp (distinct declaration declaration.mem_all _ hgroup) .parameters rfl single ?_
      exact List.mem_map.mpr ⟨_, mem, Naming.toList_camel base⟩
    have value := apart .lazyMapping ["value"] (by simp [Declaration.groups])
    have weak := apart .weakLazyMapping ["r", "v"] (by simp [Declaration.groups])
    exact (List.mem_cons.mp rival).elim (fun h => value (h ▸ List.mem_cons_self)) weak
  · intro apart declaration _ group hgroup
    have usual := isUsual_groups declaration _ group hgroup
    refine usual.nodup_names_iff.mpr fun series found single mem => ?_
    exact apart single (camel_of_stem (usual.rivals series found mem))

end Rivals

end Catalogue

namespace Manifest

open Catalogue

/-- The names that the catalogue of an accepted manifest declares together are different, unless there is one
component whose parameter is named as a variable of the catalogue. -/
theorem declared_nodup_iff_camel {text file : String} {manifest : Manifest}
    (accepted : ofText text file = .ok manifest) {arity : Nat} (h : arity ∈ manifest.arities.toList) :
    (∀ names ∈ declared [] (ofKey (.ofBase arity manifest.names.key)), names.Nodup) ↔
      (arity = 1 → Naming.camel manifest.names.key ∉ ["value", "r", "v"]) := by
  have positive : 0 < arity := manifest.arities.one_le_min.trans (Arities.mem_toList.mp h).1
  exact declared_nodup_iff (IsValid.of_ofText accepted).isPlain_key positive

theorem declared_nodup_value :
    ofText "[csharp]\nkey = \"value\"\n" "mapgen.toml" = .ok { names := { key := "value" } } ∧
      ∀ names ∈ declared [] (ofKey (.ofBase 2 "value")), names.Nodup := by
  have accepted : ofText "[csharp]\nkey = \"value\"\n" "mapgen.toml" = .ok { names := { key := "value" } } := by
    decide +kernel
  exact ⟨accepted, (declared_nodup_iff_camel accepted (by decide)).mpr (by decide)⟩

theorem declared_not_nodup_value :
    ∃ manifest, ofText "[csharp]\nkey = \"value\"\n" "mapgen.toml" = .ok manifest ∧
      1 ∈ manifest.arities.toList ∧
      (∀ name ∈ ["TValue", "Value", "value"],
        [name.toList, name.toList] ∈ declared [] (ofKey (.ofBase 1 manifest.names.key))) ∧
      ¬ ∀ names ∈ declared [] (ofKey (.ofBase 1 manifest.names.key)), names.Nodup := by
  have accepted : ofText "[csharp]\nkey = \"value\"\n" "mapgen.toml" = .ok { names := { key := "value" } } := by
    decide +kernel
  have twice : ∀ name ∈ ["TValue", "Value", "value"],
      [name.toList, name.toList] ∈ declared [] (ofKey (.ofBase 1 "value")) := by
    rw [declared_ofKey (IsValid.of_ofText accepted).isPlain_key Nat.one_pos]
    decide +kernel
  refine ⟨_, accepted, by decide, twice, fun distinct => ?_⟩
  exact List.not_nodup_pair _ (distinct _ (twice "TValue" List.mem_cons_self))

end Manifest

end Polyadic
