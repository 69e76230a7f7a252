import Polyadic.Proofs.Catalogue.Tidy

/-!
# What the bindings of a key mean

The names that a composite key binds, and what each of them stands for once it is resolved: the names of the
components, one after the other, with what belongs to each (`CompositeKey.meanings`). No case mapping makes a
dollar sign (`Text.dollar_not_mem_upper`, `Text.dollar_not_mem_lower`), so a base without one gives components
without any (`CompositeKey.isPlain_components`). Then only the text of `keytuple` has placeholders of its own, and
`CompositeKey.resolve_meanings` says what all of them become.
-/

namespace Polyadic

/-! ## Casing and dollar signs -/

namespace Text

variable {c : Char}

lemma ofNat_ne_dollar {n : Nat} (h : n ≠ '$'.toNat) : Char.ofNat n ≠ '$' := by
  intro same
  have code := congrArg Char.toNat same
  rw [Char.toNat_ofNat] at code
  split at code
  · exact h code
  · cases code

/-- A table that leads only to codes behind that of the dollar sign. -/
lemma dollar_not_mem_mapCase {expansions : List (Nat × List Nat)} {runs : List CaseRun} (other : c ≠ '$')
    (expanded : ∀ entry ∈ expansions, '$'.toNat ∉ entry.2)
    (shifted : ∀ run ∈ runs, '$'.toNat < run.first + run.shift) : '$' ∉ mapCase expansions runs c := by
  unfold mapCase
  split
  · rename_i codes found
    intro hmem
    obtain ⟨code, hcode, same⟩ := List.mem_map.mp hmem
    have plain := expanded _ (Assoc.mem_of_lookup found)
    exact ofNat_ne_dollar (ne_of_mem_of_not_mem hcode plain) same
  · split
    · rename_i run found
      have covers := List.find?_some found
      have beyond := shifted run (List.mem_of_find?_eq_some found)
      simp only [CaseRun.covers, Bool.and_eq_true, decide_eq_true_eq] at covers
      rw [List.mem_singleton]
      exact (ofNat_ne_dollar (by omega)).symm
    · rw [List.mem_singleton]
      exact other.symm

lemma dollar_not_mem_upper (other : c ≠ '$') : '$' ∉ upper c := by
  unfold upper
  split
  · rename_i ascii
    exact Naming.ascii_forall (P := fun c => c ≠ '$' → '$' ∉ [c.toUpper]) (by decide) ascii other
  · exact dollar_not_mem_mapCase other (by decide) (by decide +kernel)

lemma dollar_not_mem_lower (other : c ≠ '$') : '$' ∉ lower c := by
  unfold lower
  split
  · rename_i ascii
    exact Naming.ascii_forall (P := fun c => c ≠ '$' → '$' ∉ [c.toLower]) (by decide) ascii other
  · exact dollar_not_mem_mapCase other (by decide) (by decide +kernel)

end Text

namespace Naming

variable {phrase : List Char}

lemma dollar_not_mem_pascalChars (plain : '$' ∉ phrase) : '$' ∉ pascalChars phrase := by
  intro hmem
  obtain ⟨c, hc, _, rfl | upper⟩ := exists_of_mem_pascalChars hmem
  · exact plain hc
  · exact Text.dollar_not_mem_upper (ne_of_mem_of_not_mem hc plain) upper

lemma dollar_not_mem_camelChars (plain : '$' ∉ phrase) : '$' ∉ camelChars phrase := by
  have plain := dollar_not_mem_pascalChars plain
  intro hmem
  obtain ⟨c, hc, rfl | lower⟩ := exists_of_mem_camelChars hmem
  · exact plain hc
  · exact Text.dollar_not_mem_lower (ne_of_mem_of_not_mem hc plain) lower

end Naming

/-! ## Texts without dollar signs -/

namespace Template

/-- A text without dollar signs. -/
def IsPlain (text : String) : Prop :=
  '$' ∉ text.toList

instance (text : String) : Decidable (IsPlain text) :=
  inferInstanceAs (Decidable (_ ∉ _))

lemma IsPlain.append {text text' : String} (h : IsPlain text) (h' : IsPlain text') : IsPlain (text ++ text') := by
  unfold IsPlain
  rw [String.toList_append]
  exact List.not_mem_append h h'

section Expand

variable {scopes : Scopes} {template name value meaning : String} {path : List String} {left : Nat}
  {before after : List Char}

lemma one_lt_budget (text : List Char) : 1 < budget text :=
  Nat.lt_of_lt_of_le (by decide) (Nat.le_add_left expansionLimit (placeholderCount text))

lemma budget_ne_zero (text : List Char) : budget text ≠ 0 :=
  Nat.ne_zero_of_lt (one_lt_budget text)

lemma expand_plain {chars : List Char} (plain : '$' ∉ chars) : expand scopes template path left chars = .ok chars :=
  expand_none (firstPlaceholder?_plain plain)

/-- The first token of a text gives way to what its name means. -/
lemma expand_token (plain : '$' ∉ before) (nonempty : name.toList ≠ []) (hname : IsPlain name)
    (budgeted : left ≠ 0) (fresh : name ∉ path) (found : scopes.lookup name = some value)
    (done : expand scopes template (name :: path) (budget value.toList) value.toList = .ok meaning.toList) :
    expand scopes template path left (before ++ '$' :: (name.toList ++ '$' :: after)) =
      expand scopes template path (left - 1) (before ++ meaning.toList ++ after) := by
  rw [expand_bound (firstPlaceholder?_token plain nonempty hname) budgeted fresh found, done]
  rfl

/-- A name between dollar signs and nothing else. -/
lemma resolve_token (nonempty : name.toList ≠ []) (hname : IsPlain name) (found : scopes.lookup name = some value)
    (done : expand scopes ("$" ++ name ++ "$") [name] (budget value.toList) value.toList = .ok meaning.toList)
    (plain : IsPlain meaning) : resolve scopes ("$" ++ name ++ "$") = .ok meaning := by
  have written : ("$" ++ name ++ "$").toList = [] ++ '$' :: (name.toList ++ '$' :: []) := by
    rw [String.toList_append, String.toList_append]
    rfl
  rw [resolve, written, expand_token List.not_mem_nil nonempty hname (budget_ne_zero _) List.not_mem_nil found done,
    List.nil_append, expand_plain (List.append_nil _ ▸ plain), List.append_nil]
  exact congrArg Except.ok String.ofList_toList

end Expand

end Template

open Template (IsPlain Scopes)

/-- No name of the component has a dollar sign. -/
structure KeyComponent.IsPlain (c : KeyComponent) : Prop where
  type : Template.IsPlain c.type
  parameter : Template.IsPlain c.parameter
  comparer : Template.IsPlain c.comparer

namespace KeyComponent

variable {phrase comparer : String} {c : KeyComponent}

lemma isPlain_ofPhrase (plain : Template.IsPlain phrase) (hcomparer : Template.IsPlain comparer) :
    (ofPhrase phrase comparer).IsPlain := by
  have pascal : Template.IsPlain (Naming.pascal phrase) := by
    rw [Template.IsPlain, Naming.toList_pascal]
    exact Naming.dollar_not_mem_pascalChars plain
  have camel : Template.IsPlain (Naming.camel phrase) := by
    rw [Template.IsPlain, Naming.toList_camel]
    exact Naming.dollar_not_mem_camelChars plain
  have parameter : Template.IsPlain (Naming.parameterName phrase) := by
    unfold Naming.parameterName Naming.safe
    have sign : Template.IsPlain "@" := by decide
    split
    · exact sign.append camel
    · exact camel
  have tee : Template.IsPlain "T" := by decide
  constructor <;> simp only [ofPhrase]
  · exact tee.append pascal
  · exact parameter
  · exact hcomparer

end KeyComponent

namespace CompositeKey

variable {key : CompositeKey}

lemma isPlain_components {base : String} (plain : IsPlain base) (arity : Nat) :
    ∀ c ∈ (ofBase arity base).components, c.IsPlain := by
  intro c hc
  obtain ⟨number, digits, rfl⟩ := mem_components hc
  have hnumber : IsPlain (String.ofList number) := by
    rw [IsPlain, String.toList_ofList]
    exact fun dollar => absurd (digits '$' dollar) (by decide)
  exact KeyComponent.isPlain_ofPhrase (plain.append hnumber) (.append (by decide) hnumber)

/-- Only the tuple of several components has placeholders of its own. -/
lemma isPlain_bindings (plain : ∀ c ∈ key.components, c.IsPlain) : ∀ pair ∈ key.scope.bindings,
    (pair = ("keytuple", "new $Tuple<TKeys>$($keys$)") ∧ key.isTuple = true) ∨ IsPlain pair.2 :=
  forall_bindings .append (by decide) fun c hc => ⟨(plain c hc).type, (plain c hc).parameter, (plain c hc).comparer⟩

lemma arity_ofBase (arity : Nat) (base : String) : (ofBase arity base).arity = arity := by
  unfold CompositeKey.arity ofBase
  dsimp only
  split
  · rename_i single
    exact single.symm
  · rw [List.length_map, List.length_range']

/-! ## Meanings -/

/-- Types and names, each name behind its type. -/
def pairs (types names : List String) : List String :=
  List.zipWith (fun type name => type ++ " " ++ name) types names

/-- What the names that a key binds stand for: lists of the names of its components, in the order of the
components. Several components are kept in a tuple. -/
def meanings (key : CompositeKey) : List (String × String) :=
  let list := String.intercalate ", "
  let comparerTypes := key.types.map fun type => "IEqualityComparer<" ++ type ++ ">"
  let tupleType := "Tuple<" ++ list key.types ++ ">"
  [("TKeys", list key.types),
   ("TKeys keys", list (pairs key.types key.parameters)),
   ("Tuple<TKeys>", if 1 < key.arity then tupleType else list key.types),
   ("keytuple",
     if 1 < key.arity then "new " ++ tupleType ++ "(" ++ list key.parameters ++ ")" else list key.parameters),
   ("keys", list key.parameters),
   ("IEqualityComparer<TKeys>", list comparerTypes),
   ("IEqualityComparer<TKeys> comparers", list (pairs comparerTypes key.comparers)),
   ("comparers", list key.comparers)]

lemma names_scope (key : CompositeKey) : key.scope.names = key.meanings.map Prod.fst := by
  rw [Template.Scope.names, bindings_scope]
  rfl

lemma pairs_map (f g : KeyComponent → String) :
    pairs (key.components.map f) (key.components.map g) = key.components.map fun c => f c ++ " " ++ g c := by
  rw [pairs, List.zipWith_map, List.zipWith_self]

/-- Every name is bound to what it stands for, but for that of a tuple. -/
lemma mem_bindings_of_mem_meanings {binding : String × String} (h : binding ∈ key.meanings) :
    (binding ∈ key.scope.bindings ∧ (key.isTuple = true → binding.1 ≠ "keytuple")) ∨
      key.isTuple = true ∧ binding.1 = "keytuple" ∧
        binding.2 = "new " ++ ("Tuple<" ++ listed key.types ++ ">") ++ "(" ++ listed key.parameters ++ ")" := by
  have typed : String.intercalate ", " (pairs key.types key.parameters) =
      key.listing fun c => s!"{c.type} {c.parameter}" := by
    rw [types, parameters, pairs_map]
    rfl
  have comparerTypes : (key.types.map fun type => "IEqualityComparer<" ++ type ++ ">") =
      key.components.map fun c => c.comparerType := List.map_map
  have typedComparers : String.intercalate ", " (pairs (key.components.map fun c => c.comparerType) key.comparers) =
      key.listing fun c => s!"{c.comparerType} {c.comparer}" := by
    rw [comparers, pairs_map]
    rfl
  revert binding
  rw [bindings_scope, meanings]
  simp only [typed, comparerTypes, typedComparers, isTuple, decide_eq_true_eq, List.forall_mem_cons]
  have self (text : String) : toString text = text := rfl
  by_cases tuple : 1 < key.arity <;> simp [tuple, self, listed, listing]

section Tuple

lemma isPlain_tuple {types parameters : String} (htypes : IsPlain types) (hparameters : IsPlain parameters) :
    IsPlain ("new " ++ types ++ "(" ++ parameters ++ ")") :=
  .append (.append (.append (.append (by decide) htypes) (by decide)) hparameters) (by decide)

lemma bindings_of_isTuple (several : key.isTuple = true) :
    ("keytuple", "new $Tuple<TKeys>$($keys$)") ∈ key.scope.bindings ∧
      ("Tuple<TKeys>", "Tuple<" ++ listed key.types ++ ">") ∈ key.scope.bindings ∧
      ("keys", listed key.parameters) ∈ key.scope.bindings := by
  have self (text : String) : toString text = text := rfl
  simp [bindings_scope, several, self]

variable {types parameters : String} (tupleType : ("Tuple<TKeys>", types) ∈ key.scope.bindings)
  (parameterList : ("keys", parameters) ∈ key.scope.bindings)

include tupleType parameterList

/-- The two placeholders in the text of `keytuple` give way to plain texts one after the other. -/
lemma expand_tuple (htypes : IsPlain types) (hparameters : IsPlain parameters) (around : Scopes) (template : String) :
    let text := "new $Tuple<TKeys>$($keys$)".toList
    Template.expand (key.scope :: around) template ["keytuple"] (Template.budget text) text =
      .ok ("new " ++ types ++ "(" ++ parameters ++ ")").toList := by
  intro text
  have written : text = "new ".toList ++ '$' :: ("Tuple<TKeys>".toList ++ '$' :: ("(".toList ++ '$' ::
      ("keys".toList ++ '$' :: ")".toList))) := by decide
  have opening : IsPlain ("new " ++ types ++ "(") := .append (.append (by decide) htypes) (by decide)
  have second : "new ".toList ++ types.toList ++ ("(".toList ++ '$' :: ("keys".toList ++ '$' :: ")".toList)) =
      ("new " ++ types ++ "(").toList ++ '$' :: ("keys".toList ++ '$' :: ")".toList) := by
    simp only [String.toList_append, List.append_assoc]
  have left := Template.one_lt_budget text
  rw [written] at left ⊢
  rw [Template.expand_token (by decide) (by decide) (by decide) (Nat.ne_zero_of_lt left) (by decide)
      (lookup_scope tupleType) (Template.expand_plain htypes),
    second, Template.expand_token opening (by decide) (by decide) (Nat.sub_ne_zero_of_lt left) (by decide)
      (lookup_scope parameterList) (Template.expand_plain hparameters),
    ← String.toList_append, ← String.toList_append, Template.expand_plain (isPlain_tuple htypes hparameters)]

end Tuple

/-- The names that a key binds are resolved to what they stand for, whatever scopes there are around those of the
key, and no dollar sign is left. This holds for every base without one and for every number of components. -/
theorem resolve_meanings {base : String} (plain : '$' ∉ base.toList) (arity : Nat) (around : Scopes) :
    let key := ofBase arity base
    key.arity = arity ∧ key.scope.names = key.meanings.map Prod.fst ∧
      ∀ name text, (name, text) ∈ key.meanings →
        Template.resolve (key.scope :: around) ("$" ++ name ++ "$") = .ok text ∧ '$' ∉ text.toList := by
  intro key
  refine ⟨arity_ofBase arity base, names_scope key, fun name text h => ?_⟩
  have plain := isPlain_bindings (isPlain_components plain arity)
  obtain ⟨nonempty, hname⟩ : name.toList ≠ [] ∧ IsPlain name := by
    have names : ∀ name ∈ key.meanings.map Prod.fst, name.toList ≠ [] ∧ IsPlain name := by
      show ∀ name ∈ ["TKeys", "TKeys keys", "Tuple<TKeys>", "keytuple", "keys", "IEqualityComparer<TKeys>",
        "IEqualityComparer<TKeys> comparers", "comparers"], _
      decide
    exact names name (List.mem_map_of_mem h)
  -- A name is bound to what it stands for, unless this is a tuple, whose text is resolved further.
  obtain ⟨bound, other⟩ | ⟨several, rfl, rfl⟩ := mem_bindings_of_mem_meanings h
  · obtain ⟨same, several⟩ | htext := plain _ bound
    · exact absurd (congrArg Prod.fst same) (other several)
    · refine ⟨Template.resolve_token nonempty hname (lookup_scope bound) ?_ htext, htext⟩
      exact Template.expand_plain htext
  · obtain ⟨tuple, tupleType, parameters⟩ := bindings_of_isTuple several
    have htypes : IsPlain ("Tuple<" ++ listed key.types ++ ">") := by
      simpa using plain _ tupleType
    have hparameters : IsPlain (listed key.parameters) := by
      simpa using plain _ parameters
    have expanded := expand_tuple tupleType parameters htypes hparameters around ("$" ++ "keytuple" ++ "$")
    have htext := isPlain_tuple htypes hparameters
    exact ⟨Template.resolve_token nonempty hname (lookup_scope tuple) expanded htext, htext⟩

/-- Two components whose names are cased, and a scope around them in which one of the names stands for another. -/
theorem resolve_meanings_shadowed :
    let scopes := [(ofBase 2 "ß id").scope, .ofList [("keys", "$keytuple$")]]
    '$' ∉ "ß id".toList ∧
      Template.resolve scopes ("$" ++ "keytuple" ++ "$") = .ok "new Tuple<TSSId1, TSSId2>(sSId1, sSId2)" ∧
      Template.resolve scopes ("$" ++ "IEqualityComparer<TKeys> comparers" ++ "$") =
        .ok "IEqualityComparer<TSSId1> comparer1, IEqualityComparer<TSSId2> comparer2" := by
  intro scopes
  have plain : '$' ∉ "ß id".toList := by decide
  obtain ⟨_, _, resolves⟩ := resolve_meanings plain 2 [.ofList [("keys", "$keytuple$")]]
  refine ⟨plain, (resolves _ _ ?_).1, (resolves _ _ ?_).1⟩
  · decide +kernel
  · decide +kernel

end CompositeKey

end Polyadic
