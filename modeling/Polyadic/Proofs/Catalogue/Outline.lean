import Polyadic.Proofs.Catalogue.Declared
import Polyadic.Proofs.Naming.Numbering

/-!
# Outlines of declarations

The lists of names that are declared together, up to the names of the key: which series of them is in a list,
and which names come besides (`Group`). They show in the templates already, where the placeholder of the series
stands in its place (`outline`). A program that keeps to a few rules about its headers (`fits`) declares what
is outlined, with the series of the key put in (`declared_eq`).
-/

namespace Polyadic.Catalogue

open Session (Step meaning meaning_of_ok meaning_of_plain)
open Template (Provides Scopes Supported)
open CompositeKey (listed numbers ofBase)

/-! ## The names of a key -/

/-- A series of names of a key. -/
inductive Series where
  | types
  | properties
  | parameters
  deriving DecidableEq

/-- What all names of the series start with. -/
def Series.stem (base : String) : Series → List Char
  | types => 'T' :: Naming.pascalChars base.toList
  | properties => Naming.pascalChars base.toList
  | parameters => Naming.camelChars base.toList

/-- The names of the series. -/
def Series.names (base : String) (arity : Nat) (series : Series) : List (List Char) :=
  (numbers arity).map (series.stem base ++ ·)

/-- A name, perhaps with the sign in front. -/
def IsWord (text : List Char) : Prop :=
  ∀ c ∈ text, c.isAlphanum = true ∨ c = '@'

lemma IsWord.not_mem {text : List Char} (h : IsWord text) {c : Char} (other : c.isAlphanum = false ∧ c ≠ '@') :
    c ∉ text := by
  intro hc
  obtain alphanum | rfl := h c hc
  · exact absurd alphanum (Bool.eq_false_iff.mp other.1)
  · exact other.2 rfl

lemma IsWord.blank {text : List Char} (h : IsWord text) : ' ' ∉ text :=
  h.not_mem (by decide)

lemma typed_chars {type name : String} (htype : IsWord type.toList) (hname : IsWord name.toList) :
    ∀ c ∈ (type ++ " " ++ name).toList, c.isAlphanum = true ∨ c = '@' ∨ c = ' ' := by
  intro c hc
  simp only [String.toList_append, List.mem_append] at hc
  obtain (hc | hc) | hc := hc
  · exact (htype c hc).imp_right .inl
  · exact .inr (.inr (List.mem_singleton.mp hc))
  · exact (hname c hc).imp_right .inl

lemma entryName_typed (type : String) {name : String} (hname : IsWord name.toList) :
    entryName (type ++ " " ++ name).toList = bare name.toList := by
  rw [String.toList_append, String.toList_append, List.append_assoc]
  exact (entryName_append type.toList name.toList).trans (entryName_of_not_mem hname.blank)

section Component

lemma toList_safe (name : String) :
    (Naming.safe name).toList = name.toList ∨ (Naming.safe name).toList = '@' :: name.toList := by
  unfold Naming.safe
  split
  · rw [String.toList_append]
    exact .inr rfl
  · exact .inl rfl

lemma isWord_safe {name : String} (letters : ∀ c ∈ name.toList, c.isAlphanum = true) :
    IsWord (Naming.safe name).toList := by
  have word : IsWord name.toList := fun c hc => .inl (letters c hc)
  obtain plain | escaped := toList_safe name
  · rwa [plain]
  · rw [escaped]
    exact List.forall_mem_cons.mpr ⟨.inr rfl, word⟩

lemma bare_safe {name : String} (letters : ∀ c ∈ name.toList, c.isAlphanum = true) :
    bare (Naming.safe name).toList = name.toList := by
  obtain plain | escaped := toList_safe name
  · rw [plain]
    cases hname : name.toList with
    | nil => rfl
    | cons c rest =>
      refine bare_cons ?_ rest
      rintro rfl
      have letter := letters '@' (hname ▸ List.mem_cons_self)
      cases letter
  · rw [escaped, bare]

variable {phrase : String} (plain : Naming.IsPlain phrase.toList) (comparer : String)

include plain

lemma isWord_type : IsWord (KeyComponent.ofPhrase phrase comparer).type.toList := by
  rw [KeyComponent.toList_type]
  exact List.forall_mem_cons.mpr ⟨.inl rfl, fun c hc => .inl (Naming.isAlphanum_of_mem_pascalChars plain c hc)⟩

lemma parameter_ofPhrase : IsWord (KeyComponent.ofPhrase phrase comparer).parameter.toList ∧
    bare (KeyComponent.ofPhrase phrase comparer).parameter.toList = Naming.camelChars phrase.toList := by
  have letters := Naming.isAlphanum_of_mem_camelChars plain
  rw [← Naming.toList_camel] at letters ⊢
  simp only [KeyComponent.ofPhrase, Naming.parameterName]
  exact ⟨isWord_safe letters, bare_safe letters⟩

lemma property_ofPhrase : IsWord (KeyComponent.ofPhrase phrase comparer).property.toList ∧
    bare (KeyComponent.ofPhrase phrase comparer).property.toList = Naming.pascalChars phrase.toList := by
  have letters := Naming.isAlphanum_of_mem_pascalChars plain
  rw [← Naming.toList_pascal] at letters ⊢
  simp only [KeyComponent.ofPhrase, Naming.typeName]
  exact ⟨isWord_safe letters, bare_safe letters⟩

end Component

/-! ## Entries -/

/-- The series whose names are declared in such brackets. -/
def Brackets.series : Brackets → Series
  | angle => .types
  | round | square => .parameters

/-- The name that is bound to the entries of a key in such brackets. -/
def Brackets.placeholder : Brackets → String
  | angle => "TKeys"
  | round | square => "TKeys keys"

/-- What stands in such brackets for a component of a key. -/
def Brackets.entry (component : KeyComponent) : Brackets → String
  | angle => component.type
  | round | square => s!"{component.type} {component.parameter}"

section Entries

variable {base : String} (plain : Naming.IsPlain base.toList)

include plain

/-- The entry of a numbered component: it is of words and blanks, and its name is the numbered stem. -/
lemma entry_numbered (brackets : Brackets) {number : List Char} (digits : ∀ d ∈ number, d.isDigit = true)
    (comparer : String) :
    let entry := brackets.entry (.ofPhrase (base ++ String.ofList number) comparer)
    (∀ c ∈ entry.toList, c.isAlphanum = true ∨ c = '@' ∨ c = ' ') ∧
      entryName entry.toList = brackets.series.stem base ++ number := by
  have numbered := CompositeKey.isPlain_append_number plain digits
  have chars : (base ++ String.ofList number).toList = base.toList ++ number := by
    rw [String.toList_append, String.toList_ofList]
  have type := isWord_type numbered comparer
  obtain ⟨parameter, name⟩ := parameter_ofPhrase numbered comparer
  rw [chars, Naming.camelChars_append_number digits] at name
  cases brackets with
  | angle =>
    refine ⟨fun c hc => (type c hc).imp_right .inl, ?_⟩
    show entryName (KeyComponent.ofPhrase _ comparer).type.toList = _
    rw [entryName_of_not_mem type.blank, KeyComponent.toList_type, chars, Naming.pascalChars_append_number digits]
    exact bare_cons (by decide) _
  | round => exact ⟨typed_chars type parameter, (entryName_typed _ parameter).trans name⟩
  | square => exact ⟨typed_chars type parameter, (entryName_typed _ parameter).trans name⟩

lemma entries_ofBase (arity : Nat) (brackets : Brackets) :
    ((ofBase arity base).components.map brackets.entry).map (fun entry => entryName entry.toList) =
      brackets.series.names base arity ∧
    ∀ entry ∈ (ofBase arity base).components.map brackets.entry,
      ∀ c ∈ entry.toList, c.isAlphanum = true ∨ c = '@' ∨ c = ' ' := by
  have numbered (number : List Char) (h : number ∈ numbers arity) (comparer : String) :=
    entry_numbered plain brackets (CompositeKey.isDigit_of_mem_numbers h) comparer
  constructor
  · rw [CompositeKey.components_ofBase, List.map_map, List.map_map]
    exact List.map_congr_left fun number h => (numbered number h _).2
  · rw [CompositeKey.components_ofBase, List.map_map, List.forall_mem_map]
    exact fun number h => (numbered number h _).1

end Entries

/-- The scopes give all names that a key binds a meaning, and the key's own to those of its entries. -/
structure Binds (scopes : Scopes) (key : CompositeKey) : Prop where
  provides : Provides scopes CompositeKey.names
  entries : ∀ brackets : Brackets,
    scopes.lookup brackets.placeholder = some (listed (key.components.map brackets.entry))

lemma binds_scope {base : String} (plain : Naming.IsPlain base.toList) (arity : Nat) :
    Binds [(ofBase arity base).scope] (ofBase arity base) := by
  refine ⟨CompositeKey.provides (CompositeKey.isInert_components plain arity), fun brackets => ?_⟩
  apply CompositeKey.lookup_scope
  rw [CompositeKey.bindings_scope]
  cases brackets with
  | angle => exact List.mem_cons_self
  | round => exact List.mem_cons_of_mem _ List.mem_cons_self
  | square => exact List.mem_cons_of_mem _ List.mem_cons_self

/-- A further scope may bind other names. -/
lemma Binds.push {scopes : Scopes} {key : CompositeKey} (binds : Binds scopes key) {scope : Template.Scope}
    (h : (scope.bindings.all fun binding => binding.1 ∉ CompositeKey.names &&
      Supported.scan CompositeKey.names none binding.2.toList) = true) :
    Binds (scope :: scopes) key := by
  have bound : ∀ name value, scope.get? name = some value →
      name ∉ CompositeKey.names ∧ Supported CompositeKey.names value.toList := by
    intro name value found
    have binding := List.all_eq_true.mp h _ (Assoc.mem_of_lookup found)
    simp only [Bool.and_eq_true, decide_eq_true_eq] at binding
    exact ⟨binding.1, (Supported.of_scan _).1 binding.2⟩
  have apart : ∀ name ∈ CompositeKey.names, scope.get? name = none := by
    intro name hname
    cases found : scope.get? name with
    | none => rfl
    | some value => exact absurd hname (bound name value found).1
  constructor
  · exact binds.provides.push (fun name value found => (bound name value found).2.wellDelimited) apart
  · intro brackets
    have own : brackets.placeholder ∈ CompositeKey.names := by
      cases brackets <;> decide
    rw [Scopes.lookup_cons, apart _ own, Option.none_or]
    exact binds.entries brackets

/-! ## Headers -/

/-- The placeholder of the entries in such brackets. -/
def Brackets.token (brackets : Brackets) : List Char :=
  '$' :: (brackets.placeholder.toList ++ ['$'])

/-- The first brackets of the header start with the placeholder of the entries in them, and behind it comes the
end of the brackets or a comma. -/
def Brackets.fits (brackets : Brackets) (header : String) : Bool :=
  let text := Text.chars header
  let front := text.takeWhile (· != brackets.opening)
  let inner := (text.dropWhile (· != brackets.opening)).tail
  let further := (inner.takeWhile (· != brackets.closing)).drop brackets.token.length
  let back := (inner.dropWhile (· != brackets.closing)).tail
  text = front ++ brackets.opening :: (brackets.token ++ (further ++ brackets.closing :: back)) &&
    '$' ∉ front ++ further && (further = [] || further.head? = some ',') &&
    Supported.scan CompositeKey.names none text && Supported.scan CompositeKey.names none back

/-- Entries behind a comma are split off the same way from whatever stands in front. -/
lemma split_further {further : List Char} (h : further = [] ∨ further.head? = some ',') :
    ∃ pieces, ∀ text, Text.split (· == ',') (text ++ further) = Text.split (· == ',') text ++ pieces := by
  cases further with
  | nil => exact ⟨[], fun text => by rw [List.append_nil, List.append_nil]⟩
  | cons c rest =>
    obtain none | comma := h
    · cases none
    · cases comma
      exact ⟨_, fun text => Text.split_append (p := (· == ',')) (beq_self_eq_true ',') text rest⟩

lemma Brackets.parts_of_fits {brackets : Brackets} {header : String} (h : brackets.fits header = true) :
    ∃ front further back,
      header.toList = front ++ brackets.opening :: (brackets.token ++ (further ++ brackets.closing :: back)) ∧
      (brackets.opening ∉ front ∧ '$' ∉ front) ∧ (brackets.closing ∉ further ∧ '$' ∉ further) ∧
      (further = [] ∨ further.head? = some ',') ∧
      Supported CompositeKey.names header.toList ∧ Supported CompositeKey.names back := by
  simp only [fits, Text.chars_eq, Bool.and_eq_true, decide_eq_true_eq, Bool.or_eq_true, List.mem_append, not_or] at h
  obtain ⟨⟨⟨⟨written, hfront, hfurther⟩, shape⟩, supported⟩, hback⟩ := h
  refine ⟨_, _, _, written, ⟨?_, hfront⟩, ⟨?_, hfurther⟩, shape, (Supported.of_scan _).1 supported,
    (Supported.of_scan _).1 hback⟩
  · intro mem
    have other := List.mem_takeWhile_imp mem
    rw [bne_self_eq_false] at other
    cases other
  · intro mem
    have other := List.mem_takeWhile_imp (List.mem_of_mem_drop mem)
    rw [bne_self_eq_false] at other
    cases other

lemma mem_listed {entries : List String} {c : Char} (h : c ∈ (listed entries).toList) :
    c = ',' ∨ c = ' ' ∨ ∃ entry ∈ entries, c ∈ entry.toList := by
  induction entries with
  | nil => cases h
  | cons entry entries ih =>
    by_cases single : entries = []
    · rw [single, listed, String.intercalate_singleton] at h
      exact .inr (.inr ⟨entry, List.mem_cons_self, h⟩)
    · rw [listed, String.intercalate_cons_of_ne_nil single, String.toList_append, String.toList_append,
        List.mem_append, List.mem_append] at h
      obtain (h | h) | h := h
      · exact .inr (.inr ⟨entry, List.mem_cons_self, h⟩)
      · obtain rfl | h := List.mem_cons.mp h
        · exact .inl rfl
        · exact .inr (.inl (List.mem_singleton.mp h))
      · refine (ih h).imp_right (.imp_right ?_)
        rintro ⟨other, hother, hc⟩
        exact ⟨other, List.mem_cons_of_mem entry hother, hc⟩

section Listed

variable {entries : List String}
  (chars : ∀ entry ∈ entries, ∀ c ∈ entry.toList, c.isAlphanum = true ∨ c = '@' ∨ c = ' ') {c : Char}

include chars

lemma not_mem_entry (other : c.isAlphanum = false ∧ c ≠ '@' ∧ c ≠ ' ') :
    ∀ entry ∈ entries, c ∉ entry.toList := by
  obtain ⟨alphanum, sign, blank⟩ := other
  intro entry hentry hc
  obtain letter | rfl | rfl := chars entry hentry c hc
  · exact absurd letter (Bool.eq_false_iff.mp alphanum)
  · exact sign rfl
  · exact blank rfl

lemma not_mem_listed (other : c.isAlphanum = false ∧ c ≠ '@' ∧ c ≠ ' ') (comma : c ≠ ',') :
    c ∉ (listed entries).toList := by
  intro hc
  obtain rfl | rfl | ⟨entry, hentry, hc⟩ := mem_listed hc
  · exact comma rfl
  · exact other.2.2 rfl
  · exact not_mem_entry chars other entry hentry hc

end Listed

/-- In the text of a fitting header, the names of the key stand where the header has their placeholder. -/
theorem names_meaning {base : String} (plain : Naming.IsPlain base.toList) {arity : Nat} (positive : 0 < arity)
    {scopes : Scopes} (binds : Binds scopes (ofBase arity base)) {brackets : Brackets} {header : String}
    (fits : brackets.fits header = true) :
    brackets.names (meaning scopes header).toList =
      brackets.series.names base arity ++ (brackets.names header.toList).tail := by
  obtain ⟨names, chars⟩ := entries_ofBase plain arity brackets
  have nonempty : (ofBase arity base).components.map brackets.entry ≠ [] := by
    rw [CompositeKey.components_ofBase, ne_eq, List.map_eq_nil_iff, List.map_eq_nil_iff]
    exact CompositeKey.numbers_ne_nil positive
  have found := binds.entries brackets
  generalize (ofBase arity base).components.map brackets.entry = entries at names chars nonempty found
  obtain ⟨front, further, back, written, ⟨opening, hfront⟩, ⟨closing, hfurther⟩, shape, supported, hback⟩ :=
    Brackets.parts_of_fits fits
  obtain ⟨pieces, split⟩ := split_further shape
  have within {text : List Char} (h : brackets.closing ∉ text) : brackets.closing ∉ text ++ further :=
    fun mem => (List.mem_append.mp mem).elim h closing
  have template : brackets.names header.toList = (brackets.token :: pieces).map entryName := by
    have token : brackets.closing ∉ brackets.token ∧ ',' ∉ brackets.token := by
      cases brackets <;> decide
    rw [written, ← List.append_assoc, Brackets.names_append opening (within token.1), split,
      Text.split_of_not_mem token.2]
    rfl
  have text : ∃ rest, (meaning scopes header).toList =
      front ++ brackets.opening :: (((listed entries).toList ++ further) ++ brackets.closing :: rest) := by
    have placeholder : brackets.placeholder.toList ≠ [] ∧ '$' ∉ brackets.placeholder.toList := by
      cases brackets <;> decide
    have unmarked : '$' ≠ brackets.opening ∧ '$' ≠ brackets.closing := by
      cases brackets <;> decide
    have around : header.toList = (front ++ [brackets.opening]) ++
        '$' :: (brackets.placeholder.toList ++ '$' :: ((further ++ [brackets.closing]) ++ back)) := by
      simp only [written, Brackets.token, List.append_assoc, List.cons_append, List.nil_append]
    obtain ⟨rest, resolved⟩ := binds.provides.resolve_placeholder supported around placeholder.1 placeholder.2
      found (not_mem_listed chars (by decide) (by decide)) (by simp [hfront, unmarked.1])
      (by simp [hfurther, unmarked.2]) hback
    refine ⟨rest, ?_⟩
    rw [meaning_of_ok resolved, String.toList_ofList]
    simp only [List.append_assoc, List.cons_append, List.nil_append]
  obtain ⟨rest, text⟩ := text
  have outside : brackets.closing ∉ (listed entries).toList := by
    apply not_mem_listed chars <;> cases brackets <;> decide
  rw [text, Brackets.names_append opening (within outside), split, List.map_append,
    names_of_listed nonempty (not_mem_entry chars (by decide)), names, template]
  rfl

/-! ## Outlines -/

/-- Names that are declared together: those of a series, if there is one, and others behind them. -/
structure Group where
  series? : Option Series
  others : List (List Char)
  deriving DecidableEq

/-- The names of the group for a key. -/
def Group.names (base : String) (arity : Nat) (group : Group) : List (List Char) :=
  group.series?.elim [] (·.names base arity) ++ group.others

mutual

/-- The headers of the properties among the members of a type. -/
def propertyHeaders : Step → List String
  | .block header _ _ => if declaresProperty header then [header] else []
  | .scoped _ body => propertyHeadersAll body
  | .run body => propertyHeadersAll body
  | _ => []

def propertyHeadersAll : List Step → List String
  | [] => []
  | step :: steps => propertyHeaders step ++ propertyHeadersAll steps

end

/-- The group of the names that a header lists. -/
def listed? (header : String) : Option Group :=
  (declaring? header).map fun brackets => ⟨some brackets.series, (brackets.names (Text.chars header)).tail⟩

/-- The groups that a header declares together with the body behind it. -/
def outlineBy (header : String) (body : List Step) : List Group :=
  if declaresType header then
    (listed? header).toList ++ [⟨none, (propertyHeadersAll body).map fun header => entryName (Text.chars header)⟩]
  else (listed? header).toList.map fun group => { group with others := group.others ++ localsAll body }

mutual

/-- The groups of names that a step declares together. -/
def outline : Step → List Group
  | .statement template _ => outlineBy template []
  | .openBlock header _ => outlineBy header []
  | .emptyBlock header => outlineBy header []
  | .block header _ body => outlineBy header body ++ if declaresType header then outlineAll body else []
  | .scoped _ body => outlineAll body
  | .run body => outlineAll body
  | .closeBlock | .note _ | .begin _ | .finish | .resolve _ | .attempt _ => []

def outlineAll : List Step → List Group
  | [] => []
  | step :: steps => outline step ++ outlineAll steps

end

/-- The header starts its list with the placeholder of the key, and the properties of a type have no placeholders
in their headers. -/
def headerFits (header : String) (body : List Step) : Bool :=
  (declaring? header).all (·.fits header) &&
    (!declaresType header || (propertyHeadersAll body).all fun header => '$' ∉ Text.chars header)

mutual

/-- The headers of a step fit, and scopes within it leave the names of the key alone. -/
def fits : Step → Bool
  | .statement template _ => headerFits template []
  | .openBlock header _ => headerFits header []
  | .emptyBlock header => headerFits header []
  | .block header _ body => headerFits header body && (!declaresType header || fitsAll body)
  | .scoped scope body =>
    (scope.bindings.all fun binding =>
      binding.1 ∉ CompositeKey.names && Supported.scan CompositeKey.names none binding.2.toList) && fitsAll body
  | .run body => fitsAll body
  | .closeBlock | .note _ | .begin _ | .finish | .resolve _ | .attempt _ => true

def fitsAll : List Step → Bool
  | [] => true
  | step :: steps => fits step && fitsAll steps

end

section Append

variable (steps steps' : List Step)

lemma propertyHeadersAll_append :
    propertyHeadersAll (steps ++ steps') = propertyHeadersAll steps ++ propertyHeadersAll steps' := by
  induction steps with
  | nil => rfl
  | cons step steps ih => rw [List.cons_append, propertyHeadersAll, propertyHeadersAll, ih, List.append_assoc]

lemma outlineAll_append : outlineAll (steps ++ steps') = outlineAll steps ++ outlineAll steps' := by
  induction steps with
  | nil => rfl
  | cons step steps ih => rw [List.cons_append, outlineAll, outlineAll, ih, List.append_assoc]

lemma fitsAll_append : fitsAll (steps ++ steps') = (fitsAll steps && fitsAll steps') := by
  induction steps with
  | nil => rfl
  | cons step steps ih => rw [List.cons_append, fitsAll, fitsAll, ih, Bool.and_assoc]

end Append

mutual

theorem properties_eq (step : Step) (scopes : Scopes) (plain : ∀ header ∈ propertyHeaders step, '$' ∉ header.toList) :
    properties scopes step = (propertyHeaders step).map fun header => entryName header.toList := by
  cases step with
  | block header suffix body =>
    rw [properties, propertyHeaders]
    rw [propertyHeaders] at plain
    split
    · rename_i property
      rw [if_pos property] at plain
      rw [meaning_of_plain (plain header (List.mem_singleton_self header))]
      rfl
    · rfl
  | «scoped» scope body => exact propertiesAll_eq body (scope :: scopes) plain
  | run body => exact propertiesAll_eq body scopes plain
  | _ => rfl

theorem propertiesAll_eq (steps : List Step) (scopes : Scopes)
    (plain : ∀ header ∈ propertyHeadersAll steps, '$' ∉ header.toList) :
    propertiesAll scopes steps = (propertyHeadersAll steps).map fun header => entryName header.toList := by
  cases steps with
  | nil => rfl
  | cons step steps =>
    rw [propertyHeadersAll, List.forall_mem_append] at plain
    rw [propertiesAll, propertyHeadersAll, List.map_append, properties_eq step scopes plain.1,
      propertiesAll_eq steps scopes plain.2]

end

section Fits

variable {base : String} {arity : Nat}

lemma declaredBy_eq (plain : Naming.IsPlain base.toList) (positive : 0 < arity) {scopes : Scopes}
    (binds : Binds scopes (ofBase arity base)) {header : String} {body : List Step}
    (h : headerFits header body = true) :
    declaredBy scopes header body = (outlineBy header body).map (·.names base arity) := by
  simp only [headerFits, Text.chars_eq, Bool.and_eq_true, Bool.or_eq_true, Bool.not_eq_true'] at h
  obtain ⟨list, members⟩ := h
  have listed : (declaring? header).map (·.names (meaning scopes header).toList) =
      (declaring? header).map fun brackets =>
        brackets.series.names base arity ++ (brackets.names header.toList).tail := by
    cases found : declaring? header with
    | none => rfl
    | some brackets =>
      rw [found] at list
      exact congrArg some (names_meaning plain positive binds list)
  unfold declaredBy outlineBy listed?
  simp only [Text.chars_eq]
  rw [listed]
  cases type : declaresType header with
  | true =>
    have headers : ∀ header ∈ propertyHeadersAll body, '$' ∉ header.toList := by
      obtain untyped | headers := members
      · exact absurd (untyped.symm.trans type) Bool.false_ne_true
      · exact fun header hmem => of_decide_eq_true (List.all_eq_true.mp headers header hmem)
    rw [propertiesAll_eq body scopes headers]
    cases declaring? header <;> rfl
  | false =>
    cases declaring? header with
    | none => rfl
    | some brackets => exact congrArg (fun names => [names]) (List.append_assoc _ _ _)

mutual

/-- What a fitting step declares is what is outlined. -/
theorem declared_eq (plain : Naming.IsPlain base.toList) (positive : 0 < arity) (step : Step) {scopes : Scopes}
    (binds : Binds scopes (ofBase arity base)) (h : fits step = true) :
    declared scopes step = (outline step).map (·.names base arity) := by
  cases step with
  | statement template terminator => exact declaredBy_eq plain positive binds h
  | openBlock header suffix => exact declaredBy_eq plain positive binds h
  | emptyBlock header => exact declaredBy_eq plain positive binds h
  | block header suffix body =>
    obtain ⟨hheader, hbody⟩ := Bool.and_eq_true_iff.mp h
    rw [declared, outline, List.map_append, declaredBy_eq plain positive binds hheader]
    cases type : declaresType header with
    | true =>
      rw [type] at hbody
      exact congrArg _ (declaredAll_eq plain positive body binds hbody)
    | false => rfl
  | «scoped» scope body =>
    obtain ⟨hscope, hbody⟩ := Bool.and_eq_true_iff.mp h
    exact declaredAll_eq plain positive body (binds.push hscope) hbody
  | run body => exact declaredAll_eq plain positive body binds h
  | closeBlock | note _ | begin _ | finish | resolve _ | attempt _ => rfl

theorem declaredAll_eq (plain : Naming.IsPlain base.toList) (positive : 0 < arity) (steps : List Step)
    {scopes : Scopes} (binds : Binds scopes (ofBase arity base)) (h : fitsAll steps = true) :
    declaredAll scopes steps = (outlineAll steps).map (·.names base arity) := by
  cases steps with
  | nil => rfl
  | cons step steps =>
    obtain ⟨hstep, hsteps⟩ := Bool.and_eq_true_iff.mp h
    rw [declaredAll, outlineAll, List.map_append, declared_eq plain positive step binds hstep,
      declaredAll_eq plain positive steps binds hsteps]

end

end Fits

end Polyadic.Catalogue
