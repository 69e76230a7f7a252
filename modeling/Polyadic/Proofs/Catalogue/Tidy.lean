import Polyadic.Catalogue.Declaration
import Polyadic.Catalogue.WeakSupport
import Polyadic.Proofs.Catalogue.Identifiers
import Polyadic.Proofs.Session.Tidy

/-!
# The catalogue is tidy

The names of a composite key are inert when its base is plain (`isInert_components`). Then its bindings give
a meaning to all names that the templates of the catalogue use (`CompositeKey.provides`), and every declaration
is tidy within them: there is one lemma for each group of members, and `tidy_declaration` puts them together.
-/

namespace Polyadic

open Session (Settles Step)
open Template (IsInert Provides Scopes Supported isInert)

lemma isInert_of_isAlphanum {c : Char} (h : c.isAlphanum = true) : isInert c = true :=
  Naming.ascii_forall (P := fun c => c.isAlphanum = true → isInert c = true) (by decide)
    (Naming.toNat_lt_of_isAlphanum h) h

lemma isInert_toString (n : Nat) : IsInert (toString n) := by
  intro c hc
  have digits : (toString n).toList = Nat.toDigits 10 n := String.toList_ofList
  rw [digits] at hc
  have digit : c.isDigit = true := Nat.isDigit_of_mem_toDigits (by decide) (by decide) hc
  exact isInert_of_isAlphanum (Bool.or_eq_true_iff.mpr (.inr digit))

/-- All names of the component are inert. -/
structure KeyComponent.IsInert (c : KeyComponent) : Prop where
  type : Template.IsInert c.type
  parameter : Template.IsInert c.parameter
  property : Template.IsInert c.property
  comparer : Template.IsInert c.comparer

namespace KeyComponent

lemma isInert_safe {name : String} (h : ∀ c ∈ name.toList, c.isAlphanum = true) :
    Template.IsInert (Naming.safe name) := by
  have inert : Template.IsInert name := fun c hc => isInert_of_isAlphanum (h c hc)
  unfold Naming.safe
  split
  · exact .append (.of_chars rfl rfl) inert
  · exact inert

lemma isInert_ofPhrase {phrase comparer : String} (h : Naming.IsPlain phrase.toList)
    (hcomparer : Template.IsInert comparer) : (ofPhrase phrase comparer).IsInert := by
  have pascal : ∀ c ∈ (Naming.pascal phrase).toList, c.isAlphanum = true := by
    rw [Naming.toList_pascal]
    exact Naming.isAlphanum_of_mem_pascalChars h
  have camel : ∀ c ∈ (Naming.camel phrase).toList, c.isAlphanum = true := by
    rw [Naming.toList_camel]
    exact Naming.isAlphanum_of_mem_camelChars h
  have tee : Template.IsInert "T" := .of_chars rfl rfl
  have type : Template.IsInert ("T" ++ Naming.pascal phrase) :=
    tee.append fun c hc => isInert_of_isAlphanum (pascal c hc)
  refine ⟨type, ?_, ?_, hcomparer⟩
  · simp only [ofPhrase, Naming.parameterName]
    exact isInert_safe camel
  · simp only [ofPhrase, Naming.typeName]
    exact isInert_safe pascal

lemma IsInert.comparerType {c : KeyComponent} (h : c.IsInert) : Template.IsInert c.comparerType :=
  .append (.append (.of_chars rfl rfl) h.type) (.of_chars rfl rfl)

end KeyComponent

namespace CompositeKey

lemma isInert_components {base : String} (h : Naming.IsPlain base.toList) (arity : Nat) :
    ∀ c ∈ (ofBase arity base).components, c.IsInert := by
  intro c hc
  obtain ⟨number, digits, rfl⟩ := mem_components hc
  refine KeyComponent.isInert_ofPhrase (isPlain_append_number h digits) ?_
  refine .append (.of_chars rfl rfl) fun d hd => ?_
  rw [String.toList_ofList] at hd
  exact isInert_of_isAlphanum (Bool.or_eq_true_iff.mpr (.inr (digits d hd)))

/-- The names that are bound for a key. The text of `keytuple` is written with names behind it. -/
def names : List String :=
  ["keytuple", "TKeys", "TKeys keys", "Tuple<TKeys>", "keys", "IEqualityComparer<TKeys>",
   "IEqualityComparer<TKeys> comparers", "comparers"]

variable {key : CompositeKey}

lemma isInert_listing {f : KeyComponent → String} (h : ∀ c ∈ key.components, IsInert (f c)) :
    IsInert (key.listing f) := by
  refine .intercalate (.of_chars rfl rfl) fun text htext => ?_
  obtain ⟨c, hc, rfl⟩ := List.mem_map.mp htext
  exact h c hc

lemma bindings_scope (key : CompositeKey) : key.scope.bindings =
    [("TKeys", listed key.types),
     ("TKeys keys", key.listing fun c => s!"{c.type} {c.parameter}"),
     ("Tuple<TKeys>", if key.isTuple then s!"Tuple<{listed key.types}>" else listed key.types),
     ("keytuple", if key.isTuple then "new $Tuple<TKeys>$($keys$)" else listed key.parameters),
     ("keys", listed key.parameters),
     ("IEqualityComparer<TKeys>", key.listing fun c => c.comparerType),
     ("IEqualityComparer<TKeys> comparers", key.listing fun c => s!"{c.comparerType} {c.comparer}"),
     ("comparers", listed key.comparers)] := by
  have distinct : List.Nodup ["TKeys", "TKeys keys", "Tuple<TKeys>", "keytuple", "keys",
      "IEqualityComparer<TKeys>", "IEqualityComparer<TKeys> comparers", "comparers"] := by
    decide +kernel
  exact Template.Scope.bindings_ofList distinct

lemma mem_names_scope {name : String} (h : name ∈ names.tail) : name ∈ key.scope.names := by
  have sub : names.tail ⊆ ["TKeys", "TKeys keys", "Tuple<TKeys>", "keytuple", "keys",
      "IEqualityComparer<TKeys>", "IEqualityComparer<TKeys> comparers", "comparers"] := by
    decide
  rw [Template.Scope.names, bindings_scope]
  exact sub h

/-- What holds of the names of the components and of the fixed texts between them, and carries over to texts written
one behind the other, holds of all texts that a key binds, but for the tuple of several components. -/
lemma forall_bindings {P : String → Prop} (append : ∀ {text text' : String}, P text → P text' → P (text ++ text'))
    (fixed : ∀ text ∈ ["", " ", ", ", ">", "Tuple<", "IEqualityComparer<"], P text)
    (h : ∀ c ∈ key.components, P c.type ∧ P c.parameter ∧ P c.comparer) :
    ∀ pair ∈ key.scope.bindings,
      (pair = ("keytuple", "new $Tuple<TKeys>$($keys$)") ∧ key.isTuple = true) ∨ P pair.2 := by
  simp only [List.forall_mem_cons] at fixed
  obtain ⟨empty, blank, comma, closing, tuple, comparer, _⟩ := fixed
  have listing {f : KeyComponent → String} (hf : ∀ c ∈ key.components, P (f c)) : P (key.listing f) := by
    refine Template.intercalate_induction append empty comma fun text htext => ?_
    obtain ⟨c, hc, rfl⟩ := List.mem_map.mp htext
    exact hf c hc
  have types : P (listed key.types) := listing fun c hc => (h c hc).1
  have parameters : P (listed key.parameters) := listing fun c hc => (h c hc).2.1
  have comparers : P (listed key.comparers) := listing fun c hc => (h c hc).2.2
  have typed : P (key.listing fun c => s!"{c.type} {c.parameter}") :=
    listing fun c hc => append (append (h c hc).1 blank) (h c hc).2.1
  have comparerType (c : KeyComponent) (hc : c ∈ key.components) : P c.comparerType :=
    append (append comparer (h c hc).1) closing
  have comparerTypes : P (key.listing fun c => c.comparerType) := listing comparerType
  have typedComparers : P (key.listing fun c => s!"{c.comparerType} {c.comparer}") :=
    listing fun c hc => append (append (comparerType c hc) blank) (h c hc).2.2
  have tupleType : P (if key.isTuple then s!"Tuple<{listed key.types}>" else listed key.types) := by
    split
    · exact append (append tuple types) closing
    · exact types
  simp only [bindings_scope, List.forall_mem_cons]
  refine ⟨.inr types, .inr typed, .inr tupleType, ?_, .inr parameters, .inr comparerTypes, .inr typedComparers,
    .inr comparers, nofun⟩
  split
  · rename_i several
    exact .inl ⟨rfl, several⟩
  · exact .inr parameters

/-- Only the text of `keytuple` has placeholders of its own. -/
lemma isInert_bindings (h : ∀ c ∈ key.components, c.IsInert) :
    ∀ pair ∈ key.scope.bindings, pair.1 = "keytuple" ∨ IsInert pair.2 := by
  have fixed : ∀ text ∈ ["", " ", ", ", ">", "Tuple<", "IEqualityComparer<"], IsInert text := by
    simp only [List.forall_mem_cons]
    exact ⟨.of_chars rfl rfl, .of_chars rfl rfl, .of_chars rfl rfl, .of_chars rfl rfl, .of_chars rfl rfl,
      .of_chars rfl rfl, List.forall_mem_nil _⟩
  intro pair hpair
  refine (forall_bindings .append fixed (fun c hc => ?_) pair hpair).imp_left fun several => ?_
  · exact ⟨(h c hc).type, (h c hc).parameter, (h c hc).comparer⟩
  · rw [several.1]

lemma lookup_scope {name value : String} {around : Scopes} (h : (name, value) ∈ key.scope.bindings) :
    Scopes.lookup (key.scope :: around) name = some value := by
  rw [Scopes.lookup_cons, Template.Scope.get?, Assoc.lookup_of_mem key.scope.nodup h, Option.some_or]

lemma lookup_keytuple (h : ∀ c ∈ key.components, c.IsInert) :
    ∃ value, Scopes.lookup [key.scope] "keytuple" = some value ∧ Supported names.tail value.toList := by
  have parameters : IsInert (listed key.parameters) := isInert_listing fun c hc => (h c hc).parameter
  refine ⟨if key.isTuple then "new $Tuple<TKeys>$($keys$)" else listed key.parameters, ?_, ?_⟩
  · apply lookup_scope
    simp [bindings_scope]
  · split
    · exact .of_chars rfl (by decide)
    · exact .of_isInert parameters

/-- The bindings of a key with inert names give a meaning to all names that a key binds. -/
theorem provides (h : ∀ c ∈ key.components, c.IsInert) : Provides [key.scope] names := by
  obtain ⟨tuple, found, supported⟩ := lookup_keytuple h
  constructor
  · intro name value bound
    obtain ⟨scope, hscope, here⟩ := List.exists_of_findSome?_eq_some bound
    rw [List.mem_singleton.mp hscope] at here
    obtain rfl | inert := isInert_bindings h (name, value) (Assoc.mem_of_lookup here)
    · rw [found] at bound
      cases bound
      exact supported.wellDelimited
    · have supported : Supported [] value.toList := .of_isInert inert
      exact supported.wellDelimited
  · have fresh : "keytuple" ∉ names.tail := by decide
    refine .cons fresh found supported (.of_isInert (by decide) fun name hname => ?_)
    obtain ⟨⟨_, value⟩, hmem, rfl⟩ := List.mem_map.mp (mem_names_scope hname)
    obtain rfl | inert := isInert_bindings h _ hmem
    · exact absurd hname fresh
    · exact ⟨value, lookup_scope hmem, inert⟩

end CompositeKey

namespace Catalogue

variable {scopes : Scopes} {header template value message : String} {body steps : List Step}

/-! ## Members -/

lemma tidy_line : (line template).Tidy scopes ↔ Settles scopes template := by
  have semicolon : IsInert ";" := .of_chars rfl rfl
  exact and_iff_left semicolon

lemma tidy_block :
    (block header body).Tidy scopes ↔ Settles scopes header ∧ Step.TidyAll scopes body := by
  have empty : IsInert "" := .of_chars rfl rfl
  exact and_congr_right fun _ => and_iff_right empty

lemma tidy_readable : (readable header).Tidy scopes ↔ Settles scopes header := by
  have get : Settles scopes "get" := .of_isInert (.of_chars rfl rfl)
  simp only [readable, tidy_block, tidy_line, Step.TidyAll, get, and_true]

lemma tidy_getter :
    (getter header value).Tidy scopes ↔ Settles scopes header ∧ Settles scopes s!"return {value}" := by
  have get : Settles scopes "get" := .of_isInert (.of_chars rfl rfl)
  simp only [getter, tidy_block, tidy_line, Step.TidyAll, get, and_true, true_and]

lemma tidy_giveUp (h : IsInert message) : (giveUp message).Tidy scopes := by
  have inert : IsInert s!"throw new Exception(\"{message}\")" :=
    .append (.append (.of_chars rfl rfl) h) (.of_chars rfl rfl)
  exact tidy_line.mpr (.of_isInert inert)

lemma tidy_infiniteCount : infiniteCount.Tidy scopes := by
  have header : Settles scopes "public int Count" := .of_isInert (.of_chars rfl rfl)
  have get : Settles scopes "get" := .of_isInert (.of_chars rfl rfl)
  have message : IsInert "Domain is not finite" := .of_chars rfl rfl
  exact tidy_block.mpr ⟨header, tidy_block.mpr ⟨get, tidy_giveUp message, trivial⟩, trivial⟩

lemma tidy_domainProperties (h : IsInert value) : Step.TidyAll scopes (domainProperties value) := by
  have finite : Settles scopes "public bool IsFinite" := .of_isInert (.of_chars rfl rfl)
  have numerable : Settles scopes "public bool IsNumerable" := .of_isInert (.of_chars rfl rfl)
  have returned : Settles scopes s!"return {value}" := .of_isInert (.append (.of_chars rfl rfl) h)
  exact ⟨tidy_getter.mpr ⟨finite, returned⟩, tidy_getter.mpr ⟨numerable, returned⟩, trivial⟩

variable (provides : Provides scopes CompositeKey.names)

include provides

lemma tidy_refusedEnumerators : Step.TidyAll scopes refusedEnumerators := by
  have message : IsInert "Domain is non-numerable" := .of_chars rfl rfl
  simp only [refusedEnumerators, List.map, Step.TidyAll, tidy_block, tidy_giveUp message, and_true]
  and_intros <;> exact .of_chars provides rfl (by decide)

/-! ## Interfaces and pairs -/

lemma tidy_domainInterface : domainInterface.Tidy scopes := by
  simp only [domainInterface, tidy_block, tidy_line, tidy_readable, Step.TidyAll, and_true]
  and_intros <;> exact .of_chars provides rfl (by decide)

lemma tidy_mappingInterface : mappingInterface.Tidy scopes := by
  refine tidy_block.mpr ⟨?_, ?_⟩
  · exact .of_supported provides
      (.append (.of_chars rfl (by decide)) (.of_chars rfl (by decide)))
  · simp only [tidy_line, tidy_readable, Step.TidyAll, and_true]
    and_intros <;> exact .of_chars provides rfl (by decide)

variable {key : CompositeKey} (inert : ∀ c ∈ key.components, c.IsInert)

include inert

lemma tidy_pairInterface : (pairInterface key).Tidy scopes := by
  refine tidy_block.mpr ⟨.of_chars provides rfl (by decide), ?_⟩
  refine Step.tidyAll_append.mpr ⟨?_, tidy_readable.mpr (.of_isInert (.of_chars rfl rfl)), trivial⟩
  rw [Step.tidyAll_iff, List.forall_mem_map]
  intro c hc
  have h := inert c hc
  exact tidy_readable.mpr (.of_isInert (.append (.append h.type (.of_chars rfl rfl)) h.property))

omit provides in
lemma tidy_componentGetter (index : Nat) {c : KeyComponent} (hc : c ∈ key.components) :
    (getter s!"public {c.type} {c.property}" (componentSource key index)).Tidy scopes := by
  have h := inert c hc
  have source : IsInert (componentSource key index) := by
    unfold componentSource
    split
    · exact .append (.of_chars rfl rfl) (isInert_toString index)
    · exact .of_chars rfl rfl
  refine tidy_getter.mpr ⟨?_, .of_isInert (.append (.of_chars rfl rfl) source)⟩
  exact .of_isInert (.append (.append (.append (.of_chars rfl rfl) h.type) (.of_chars rfl rfl)) h.property)

lemma tidy_pairStructure : (pairStructure key).Tidy scopes := by
  refine tidy_block.mpr ⟨.of_chars provides rfl (by decide), ?_⟩
  simp only [Step.tidyAll_append]
  refine ⟨⟨?construction, ?components⟩, ?value⟩
  case construction =>
    simp only [tidy_block, tidy_line, Step.TidyAll, and_true]
    and_intros <;> exact .of_chars provides rfl (by decide)
  case components =>
    rw [Step.tidyAll_iff]
    intro step hstep
    obtain ⟨i, hi, rfl⟩ := List.mem_mapIdx.mp hstep
    exact tidy_componentGetter inert (i + 1) (List.getElem_mem hi)
  case value =>
    have returned : IsInert ("return " ++ "inner.Value") := .append (.of_chars rfl rfl) (.of_chars rfl rfl)
    exact ⟨tidy_getter.mpr ⟨.of_isInert (.of_chars rfl rfl), .of_isInert returned⟩, trivial⟩

/-! ## Mappings -/

omit inert in
lemma tidy_delegateMapping : delegateMapping.Tidy scopes := by
  refine tidy_block.mpr ⟨.of_chars provides rfl (by decide), ?_⟩
  simp only [Step.tidyAll_append]
  refine ⟨⟨⟨?access, tidy_domainProperties (.of_chars rfl rfl)⟩, ?domain⟩,
    tidy_refusedEnumerators provides⟩
  case access =>
    have returned : Settles scopes (toString "return " ++ toString "_getter($keys$)") :=
      .of_supported provides (.append (.of_chars rfl (by decide)) (.of_chars rfl (by decide)))
    simp only [tidy_block, tidy_line, tidy_getter, returned, Step.TidyAll, and_true]
    and_intros <;> exact .of_chars provides rfl (by decide)
  case domain =>
    simp only [tidy_block, tidy_line, tidy_infiniteCount, Step.TidyAll, and_true]
    and_intros <;> exact .of_chars provides rfl (by decide)

lemma tidy_tupleComparer : (tupleComparer key).Tidy scopes := by
  refine tidy_block.mpr ⟨.of_chars provides rfl (by decide), ?_⟩
  simp only [Step.tidyAll_append, tidy_block, tidy_line, Step.TidyAll, and_true]
  refine ⟨?fields, ⟨.of_chars provides rfl (by decide), ?construction⟩,
    ⟨.of_chars provides rfl (by decide), ?equality⟩, .of_chars provides rfl (by decide),
    ?start, ⟨.of_isInert (.of_chars rfl rfl), ?hashes⟩, .of_isInert (.of_chars rfl rfl)⟩
  case fields =>
    rw [Step.tidyAll_iff, List.forall_mem_map]
    intro c hc
    have h := inert c hc
    exact tidy_line.mpr (.of_isInert (.append (.append h.comparerType (.of_chars rfl rfl)) h.comparer))
  case construction =>
    rw [Step.tidyAll_iff, List.forall_mem_map]
    intro c hc
    have h := inert c hc
    have test : IsInert s!"this.{c.comparer} = ({c.comparer} == null ? " :=
      .append (.append (.append (.append (.of_chars rfl rfl) h.comparer) (.of_chars rfl rfl)) h.comparer)
        (.of_chars rfl rfl)
    have choice : IsInert s!"EqualityComparer<{c.type}>.Default : {c.comparer})" :=
      .append (.append (.append (.append (.of_chars rfl rfl) h.type) (.of_chars rfl rfl)) h.comparer)
        (.of_chars rfl rfl)
    exact tidy_line.mpr (.of_isInert (test.append choice))
  case equality =>
    refine .of_isInert (.append (.of_chars rfl rfl) (.intercalate (.of_chars rfl rfl) ?_))
    intro text htext
    obtain ⟨i, hi, rfl⟩ := List.mem_mapIdx.mp htext
    have h := inert _ (List.getElem_mem hi)
    have left : IsInert s!"{key.components[i].comparer}.Equals(a.Item{i + 1}, b.Item{i + 1})" :=
      .append (.append (.append (.append (.append h.comparer (.of_chars rfl rfl)) (isInert_toString (i + 1)))
        (.of_chars rfl rfl)) (isInert_toString (i + 1))) (.of_chars rfl rfl)
    exact left
  case start => exact .of_isInert (.append (.of_chars rfl rfl) (isInert_toString key.arity))
  case hashes =>
    rw [Step.tidyAll_iff]
    intro step hstep
    obtain ⟨i, hi, rfl⟩ := List.mem_mapIdx.mp hstep
    have h := inert _ (List.getElem_mem hi)
    have hash : IsInert
        s!"result = result * 23 + {key.components[i].comparer}.GetHashCode(obj.Item{i + 1})" :=
      .append (.append (.append (.append (.of_chars rfl rfl) h.comparer) (.of_chars rfl rfl))
        (isInert_toString (i + 1))) (.of_chars rfl rfl)
    exact tidy_line.mpr (.of_isInert hash)

omit inert in
lemma tidy_componentMembers : Step.TidyAll scopes componentMembers := by
  simp only [componentMembers, tidy_block, tidy_line, Step.TidyAll, and_true]
  and_intros <;> exact .of_chars provides rfl (by decide)

lemma tidy_dictionaryMapping : (dictionaryMapping key).Tidy scopes := by
  refine tidy_block.mpr ⟨?_, ?_⟩
  · exact .of_supported provides
      (.append (.of_chars rfl (by decide)) (.of_chars rfl (by decide)))
  simp only [Step.tidyAll_append]
  refine ⟨⟨⟨⟨?comparer, ?contains⟩, tidy_domainProperties (.of_chars rfl rfl)⟩, ?access⟩, ?members⟩
  case comparer =>
    split
    · exact ⟨tidy_tupleComparer provides inert, trivial⟩
    · trivial
  case contains =>
    simp only [tidy_block, tidy_line, Step.TidyAll, and_true]
    and_intros <;> exact .of_chars provides rfl (by decide)
  case access =>
    -- Within the bindings of the key, this is the only further scope.
    have baseComparer : Supported CompositeKey.names
        (if key.isTuple then "new EqualityComparer($comparers$)" else "$comparers$").toList := by
      split <;> exact .of_chars rfl (by decide)
    have bound : Provides (.ofList [("base comparer", _)] :: scopes) ("base comparer" :: CompositeKey.names) :=
      provides.bind (by decide) baseComparer
    simp only [tidy_block, tidy_line, Step.TidyAll, Step.Tidy, and_true]
    refine ⟨?_, .of_chars bound rfl (by decide), ?_⟩
    · exact .of_chars provides rfl (by decide)
    · and_intros <;> exact .of_chars provides rfl (by decide)
  case members =>
    split
    · exact tidy_componentMembers provides
    · trivial

omit inert

lemma tidy_lazyFields {stored : String} (h : IsInert stored) : Step.TidyAll scopes (lazyFields stored) := by
  have inner : Settles scopes s!"protected DictionaryMapping<$TKeys$, {stored}> _inner" :=
    .of_supported provides
      (.append (.append (.of_chars rfl (by decide)) (.of_isInert h)) (.of_chars rfl (by decide)))
  simp only [lazyFields, tidy_line, inner, Step.TidyAll, and_true]
  and_intros <;> exact .of_chars provides rfl (by decide)

lemma tidy_lazyDomain : Step.TidyAll scopes lazyDomain := by
  simp only [lazyDomain, Step.tidyAll_append]
  refine ⟨⟨?_, tidy_domainProperties (.of_chars rfl rfl)⟩, tidy_refusedEnumerators provides⟩
  simp only [tidy_block, tidy_line, tidy_infiniteCount, Step.TidyAll, and_true]
  and_intros <;> exact .of_chars provides rfl (by decide)

lemma tidy_lazyConstructors {name stored : String} {extra : List Step} (hname : IsInert name)
    (hstored : IsInert stored) (hextra : Step.TidyAll scopes extra) :
    Step.TidyAll scopes (lazyConstructors name stored extra) := by
  have start : IsInert s!"public {name}(InstantiateDelegate instantiator, ContainsDelegate contains" :=
    .append (.append (.of_chars rfl rfl) hname) (.of_chars rfl rfl)
  have inner : Supported CompositeKey.names s!"_inner = new DictionaryMapping<$TKeys$, {stored}".toList :=
    .append (.of_chars rfl (by decide)) (.of_isInert hstored)
  have fields : Step.TidyAll scopes [line "_instantiator = instantiator", line "_contains = contains"] := by
    simp only [tidy_line, Step.TidyAll, and_true]
    and_intros <;> exact .of_isInert (.of_chars rfl rfl)
  refine ⟨tidy_block.mpr ⟨?without, ?plain⟩, tidy_block.mpr ⟨?withComparers, ?compared⟩, trivial⟩
  case without => exact .of_isInert (.append start (.of_chars rfl rfl))
  case plain =>
    refine Step.tidyAll_append.mpr ⟨⟨tidy_line.mpr ?_, fields⟩, hextra⟩
    exact .of_supported provides (.append inner (.of_chars rfl (by decide)))
  case withComparers =>
    exact .of_supported provides (.append (.of_isInert start) (.of_chars rfl (by decide)))
  case compared =>
    refine ⟨tidy_line.mpr ?_, fields⟩
    exact .of_supported provides (.append inner (.of_chars rfl (by decide)))

lemma tidy_lazyMapping : lazyMapping.Tidy scopes := by
  refine tidy_block.mpr ⟨.of_chars provides rfl (by decide), ?_⟩
  simp only [Step.tidyAll_append]
  refine ⟨⟨⟨tidy_lazyFields provides (.of_chars rfl rfl), ?constructors⟩, tidy_lazyDomain provides⟩, ?access⟩
  case constructors =>
    exact tidy_lazyConstructors provides (.of_chars rfl rfl) (.of_chars rfl rfl) trivial
  case access =>
    simp only [tidy_block, tidy_line, Step.TidyAll, and_true]
    and_intros <;> exact .of_chars provides rfl (by decide)

lemma tidy_weakLazyMapping : weakLazyMapping.Tidy scopes := by
  refine tidy_block.mpr ⟨?_, ?_⟩
  · exact .of_supported provides
      (.append (.of_chars rfl (by decide)) (.of_chars rfl (by decide)))
  simp only [Step.tidyAll_append]
  refine ⟨⟨⟨⟨tidy_lazyFields provides (.of_chars rfl rfl), ?constructors⟩, ?cleanup⟩,
    tidy_lazyDomain provides⟩, ?access⟩
  case constructors =>
    have registered : (line "AddToCleanupList(this)").Tidy scopes :=
      tidy_line.mpr (.of_chars provides rfl (by decide))
    exact tidy_lazyConstructors provides (.of_chars rfl rfl) (.of_chars rfl rfl) ⟨registered, trivial⟩
  case cleanup =>
    simp only [weakCleanup, tidy_block, tidy_line, Step.TidyAll, and_true]
    and_intros <;> exact .of_chars provides rfl (by decide)
  case access =>
    simp only [tidy_block, tidy_line, Step.TidyAll, and_true]
    and_intros <;> exact .of_chars provides rfl (by decide)

/-! ## Declarations -/

include inert

/-- Every declaration is tidy where its key's names have a meaning. -/
theorem tidy_declaration (declaration : Declaration) : (declaration.step key).Tidy scopes := by
  cases declaration with
  | domain => exact tidy_domainInterface provides
  | pairInterface => exact tidy_pairInterface provides inert
  | pairStructure => exact tidy_pairStructure provides inert
  | mappingInterface => exact tidy_mappingInterface provides
  | delegateMapping => exact tidy_delegateMapping provides
  | dictionaryMapping => exact tidy_dictionaryMapping provides inert
  | lazyMapping => exact tidy_lazyMapping provides
  | weakLazyMapping => exact tidy_weakLazyMapping provides

omit provides inert

/-- The catalogue is tidy for every base that is written with letters, digits and underscores. -/
theorem tidy_program (arities : Arities) {base : String} (h : Naming.IsPlain base.toList) :
    Step.TidyAll [] (program arities base) := by
  rw [Step.tidyAll_iff, program, List.forall_mem_map]
  intro arity _
  have inert := CompositeKey.isInert_components h arity
  refine Step.tidyAll_iff.mpr (List.forall_mem_map.mpr fun declaration _ => ?_)
  exact tidy_declaration (CompositeKey.provides inert) inert declaration

theorem tidy_weakBase : weakBase.Tidy [] := by
  have interval : Settles [] s!"Thread.Sleep({sweepInterval})" :=
    .of_isInert (.append (.append (.of_chars rfl rfl) (isInert_toString sweepInterval)) (.of_chars rfl rfl))
  simp only [weakBase, containerList, registration, sweepLoop, tidy_block, tidy_line, interval, Step.TidyAll,
    and_true, true_and]
  and_intros <;> exact .of_isInert (.of_chars rfl (by decide))

end Catalogue

end Polyadic
