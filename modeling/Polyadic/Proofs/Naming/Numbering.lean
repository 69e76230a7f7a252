import Polyadic.Proofs.Catalogue.Identifiers

/-!
# Numbered names

A number behind a phrase stands behind its name as well (`pascalChars_append_number`,
`camelChars_append_number`), whether it goes on with the last word or is a word of its own. So the names of
a composite key are one name and the numbers of its components (`CompositeKey.components_ofBase`), and as the
numbers are different, so are the names (`CompositeKey.nodup_numbered`). A name with a number is no reserved
word, so the parameters of several components are the numbered names as they are (`CompositeKey.names_ofBase`).
-/

namespace Polyadic

namespace Naming

variable {phrase number : List Char} {d : Char}

lemma toNat_lt_of_isDigit (h : d.isDigit = true) : d.toNat < 128 :=
  toNat_lt_of_isAlphanum (Bool.or_eq_true_iff.mpr (.inr h))

lemma isSeparator_of_isDigit (h : d.isDigit = true) : isSeparator d = false :=
  ascii_forall (P := fun d => d.isDigit = true → isSeparator d = false) (by decide)
    (toNat_lt_of_isDigit h) h

lemma upper_of_isDigit (h : d.isDigit = true) : Text.upper d = [d] := by
  rw [Text.upper_of_ascii (toNat_lt_of_isDigit h)]
  exact ascii_forall (P := fun d => d.isDigit = true → [d.toUpper] = [d]) (by decide)
    (toNat_lt_of_isDigit h) h

lemma lower_of_isDigit (h : d.isDigit = true) : Text.lower d = [d] := by
  rw [Text.lower_of_ascii (toNat_lt_of_isDigit h)]
  exact ascii_forall (P := fun d => d.isDigit = true → [d.toLower] = [d]) (by decide)
    (toNat_lt_of_isDigit h) h

variable (digits : ∀ d ∈ number, d.isDigit = true)

include digits

lemma not_isSeparator_of_digits : ∀ d ∈ number, (!isSeparator d) = true := by
  intro d hd
  rw [isSeparator_of_isDigit (digits d hd)]
  rfl

lemma pascalChars_number : pascalChars number = number := by
  rw [pascalChars_of_unbroken fun d hd => isSeparator_of_isDigit (digits d hd)]
  cases number with
  | nil => rfl
  | cons d number =>
    rw [capitalize, upper_of_isDigit (digits d List.mem_cons_self)]
    rfl

/-- The second half is about a phrase in the middle of a word. -/
lemma pascalChars_append (phrase : List Char) :
    pascalChars (phrase ++ number) = pascalChars phrase ++ number ∧
      (phrase ++ number).takeWhile (!isSeparator ·) ++
          pascalChars ((phrase ++ number).dropWhile (!isSeparator ·)) =
        phrase.takeWhile (!isSeparator ·) ++ pascalChars (phrase.dropWhile (!isSeparator ·)) ++ number := by
  induction phrase with
  | nil =>
    have word := not_isSeparator_of_digits digits
    refine ⟨pascalChars_number digits, ?_⟩
    rw [List.nil_append, List.takeWhile_eq_self_iff.mpr word, List.dropWhile_eq_nil_iff.mpr word]
    exact List.append_nil _
  | cons c phrase ih =>
    obtain ⟨behind, within⟩ := ih
    cases separates : isSeparator c with
    | true =>
      rw [List.cons_append, pascalChars_cons_of_separator separates, pascalChars_cons_of_separator separates,
        List.takeWhile_cons_of_neg (by simp [separates]), List.takeWhile_cons_of_neg (by simp [separates]),
        List.dropWhile_cons_of_neg (by simp [separates]), List.dropWhile_cons_of_neg (by simp [separates]),
        pascalChars_cons_of_separator separates, pascalChars_cons_of_separator separates]
      exact ⟨behind, behind⟩
    | false =>
      rw [List.cons_append, pascalChars_cons_of_letter separates, pascalChars_cons_of_letter separates,
        List.takeWhile_cons_of_pos (by simp [separates]), List.takeWhile_cons_of_pos (by simp [separates]),
        List.dropWhile_cons_of_pos (by simp [separates]), List.dropWhile_cons_of_pos (by simp [separates])]
      constructor
      · rw [List.append_assoc, within, List.append_assoc, List.append_assoc, List.append_assoc]
      · rw [List.cons_append, within]
        rfl

theorem pascalChars_append_number : pascalChars (phrase ++ number) = pascalChars phrase ++ number :=
  (pascalChars_append digits phrase).1

theorem camelChars_append_number : camelChars (phrase ++ number) = camelChars phrase ++ number := by
  rw [camelChars, camelChars, pascalChars_append_number digits]
  cases pascalChars phrase with
  -- The phrase has no word, and the name starts with the number.
  | nil =>
    cases number with
    | nil => rfl
    | cons d number =>
      show Text.lower d ++ number = d :: number
      rw [lower_of_isDigit (digits d List.mem_cons_self)]
      rfl
  | cons c name => exact (List.append_assoc (Text.lower c) name number).symm

lemma isDigit_getLast?_append_number (nonempty : number ≠ []) (name : List Char) :
    (name ++ number).getLast?.any Char.isDigit = true := by
  rw [List.getLast?_append_of_ne_nil _ nonempty, List.getLast?_eq_getLast_of_ne_nil nonempty,
    Option.any_some]
  exact digits _ (List.getLast_mem nonempty)

/-- No reserved word ends in a digit. -/
lemma isReservedWord_append_number (nonempty : number ≠ []) (name : List Char) :
    isReservedWord (name ++ number) = false := by
  have letters : ∀ word ∈ reservedWords.map String.toList, word.getLast?.any Char.isDigit = false := by
    decide
  rw [isReservedWord, List.contains_eq_mem, decide_eq_false_iff_not]
  intro reserved
  have digit := isDigit_getLast?_append_number digits nonempty name
  exact absurd digit (Bool.eq_false_iff.mp (letters _ reserved))

end Naming

/-- The names of a numbered component are the names of the base with the number behind them. -/
lemma KeyComponent.numbered_eq (base : String) (index : Nat) :
    numbered base index =
      { type := "T" ++ Naming.pascal base ++ toString index
        parameter := Naming.camel base ++ toString index
        property := Naming.pascal base ++ toString index
        comparer := "comparer" ++ toString index } := by
  have digits : ∀ d ∈ Nat.toDigits 10 index, d.isDigit = true :=
    fun d hd => Nat.isDigit_of_mem_toDigits (by decide) (by decide) hd
  have number : toString index = String.ofList (Nat.toDigits 10 index) := rfl
  have pascal : Naming.pascal (base ++ toString index) = Naming.pascal base ++ toString index := by
    rw [Naming.pascal, number, String.toList_append, String.toList_ofList,
      Naming.pascalChars_append_number digits, String.ofList_append, Naming.pascal]
  have camel : Naming.camel (base ++ toString index) = Naming.camel base ++ toString index := by
    rw [Naming.camel, number, String.toList_append, String.toList_ofList,
      Naming.camelChars_append_number digits, String.ofList_append, Naming.camel]
  have unescaped (name : String) : Naming.safe (name ++ toString index) = name ++ toString index := by
    rw [Naming.safe, String.toList_append, number, String.toList_ofList,
      Naming.isReservedWord_append_number digits Nat.toDigits_ne_nil]
    rfl
  rw [numbered, ofPhrase, Naming.parameterName, Naming.typeName, pascal, camel, unescaped, unescaped,
    String.append_assoc]

namespace CompositeKey

open Naming

/-- What stands behind the base in the names of the components. -/
def numbers (arity : Nat) : List (List Char) :=
  if arity = 1 then [[]] else (List.range' 1 arity).map (Nat.toDigits 10)

variable {arity : Nat} {number : List Char}

lemma isDigit_of_mem_numbers (h : number ∈ numbers arity) : ∀ d ∈ number, d.isDigit = true := by
  unfold numbers at h
  split at h
  · rw [List.mem_singleton.mp h]
    exact nofun
  · obtain ⟨index, _, rfl⟩ := List.mem_map.mp h
    exact fun d hd => Nat.isDigit_of_mem_toDigits (by decide) (by decide) hd

lemma ne_nil_of_mem_numbers (several : arity ≠ 1) (h : number ∈ numbers arity) : number ≠ [] := by
  rw [numbers, if_neg several] at h
  obtain ⟨index, _, rfl⟩ := List.mem_map.mp h
  exact Nat.toDigits_ne_nil

lemma toDigits_injective : Function.Injective (Nat.toDigits 10) := by
  intro m n h
  rw [← Nat.repr_inj, Nat.repr, Nat.repr, h]

lemma nodup_numbers (arity : Nat) : (numbers arity).Nodup := by
  unfold numbers
  split
  · exact List.nodup_singleton []
  · exact List.Nodup.map toDigits_injective List.nodup_range'

lemma numbers_ne_nil (positive : 0 < arity) : numbers arity ≠ [] := by
  unfold numbers
  split
  · exact List.cons_ne_nil _ _
  · rw [ne_eq, List.map_eq_nil_iff, List.range'_eq_nil_iff]
    exact positive.ne'

lemma components_ofBase (arity : Nat) (base : String) : (ofBase arity base).components =
    (numbers arity).map fun number =>
      .ofPhrase (base ++ String.ofList number) ("comparer" ++ String.ofList number) := by
  unfold ofBase numbers
  dsimp only
  split
  · rw [List.map_singleton, String.ofList_nil, String.append_empty, String.append_empty]
  · rw [List.map_map]
    rfl

/-- One name with the numbers of a key, and further names that do not end in a digit: all of them are different
unless there is one component, which has no number, and its name is among the others. -/
theorem nodup_numbered {name : List Char} {others : List (List Char)} (distinct : others.Nodup)
    (unnumbered : ∀ other ∈ others, other.getLast?.any Char.isDigit = false) :
    ((numbers arity).map (name ++ ·) ++ others).Nodup ↔ (arity = 1 → name ∉ others) := by
  have injective : Function.Injective (name ++ · : List Char → List Char) :=
    fun _ _ h => List.append_cancel_left h
  rw [List.nodup_append]
  constructor
  · rintro ⟨_, _, apart⟩ rfl hname
    refine apart name ?_ name hname rfl
    exact List.mem_map.mpr ⟨[], List.mem_singleton_self _, List.append_nil name⟩
  · intro h
    refine ⟨(nodup_numbers arity).map injective, distinct, ?_⟩
    rintro _ hnumbered other hother rfl
    obtain ⟨number, hnumber, rfl⟩ := List.mem_map.mp hnumbered
    by_cases single : arity = 1
    · subst single
      rw [List.mem_singleton.mp hnumber, List.append_nil] at hother
      exact h rfl hother
    · have nonempty := ne_nil_of_mem_numbers single hnumber
      have digit := isDigit_getLast?_append_number (isDigit_of_mem_numbers hnumber) nonempty name
      exact absurd digit (Bool.eq_false_iff.mp (unnumbered _ hother))

/-! ## Several components -/

/-- A name with each of the numbers of several components. -/
def numbering (arity : Nat) (name : String) : List String :=
  (List.range' 1 arity).map fun index => name ++ toString index

lemma length_numbering (arity : Nat) (name : String) : (numbering arity name).length = arity := by
  rw [numbering, List.length_map, List.length_range']

lemma nodup_numbering (arity : Nat) (name : String) : (numbering arity name).Nodup := by
  refine List.Nodup.map (fun index index' h => ?_) List.nodup_range'
  have same : toString index = toString index' := (String.append_right_inj name).mp h
  exact Nat.repr_inj.mp same

/-- The names of several components are the names of the base with the numbers from one on behind them, whatever
the base is, and so they are different and as many as there are components. -/
theorem names_ofBase (base : String) {arity : Nat} (several : 2 ≤ arity) :
    let key := ofBase arity base
    key.types = numbering arity ("T" ++ pascal base) ∧
      key.properties = numbering arity (pascal base) ∧
      key.parameters = numbering arity (camel base) ∧
      key.comparers = numbering arity "comparer" ∧
      ∀ names ∈ [key.types, key.properties, key.parameters, key.comparers],
        names.Nodup ∧ names.length = arity := by
  intro key
  have components : key.components = (List.range' 1 arity).map (.numbered base) :=
    if_neg (Nat.ne_of_gt several)
  have series (f : KeyComponent → String) {name : String}
      (h : ∀ index, f (.numbered base index) = name ++ toString index) :
      key.components.map f = numbering arity name := by
    rw [components, List.map_map]
    exact List.map_congr_left fun index _ => h index
  have types : key.types = numbering arity ("T" ++ pascal base) :=
    series _ fun index => congrArg KeyComponent.type (KeyComponent.numbered_eq base index)
  have properties : key.properties = numbering arity (pascal base) :=
    series _ fun index => congrArg KeyComponent.property (KeyComponent.numbered_eq base index)
  have parameters : key.parameters = numbering arity (camel base) :=
    series _ fun index => congrArg KeyComponent.parameter (KeyComponent.numbered_eq base index)
  have comparers : key.comparers = numbering arity "comparer" :=
    series _ fun index => congrArg KeyComponent.comparer (KeyComponent.numbered_eq base index)
  refine ⟨types, properties, parameters, comparers, ?_⟩
  rw [types, properties, parameters, comparers]
  simp only [List.forall_mem_cons, nodup_numbering, length_numbering, and_self, List.not_mem_nil,
    false_implies, implies_true]

/-- The number is a word of its own behind a separator, and the upper case of the base has two letters. -/
theorem names_ofBase_sharp :
    let key := ofBase 2 "ß-"
    2 ≤ 2 ∧ key.types = ["TSS1", "TSS2"] ∧ key.properties = ["SS1", "SS2"] ∧
      key.parameters = ["sS1", "sS2"] ∧ key.comparers = ["comparer1", "comparer2"] := by
  obtain ⟨types, properties, parameters, comparers, _⟩ := names_ofBase "ß-" (Nat.le_refl 2)
  refine ⟨Nat.le_refl 2, ?_, ?_, ?_, ?_⟩
  · rw [types]
    cbv
  · rw [properties]
    cbv
  · rw [parameters]
    cbv
  · rw [comparers]
    cbv

end CompositeKey

end Polyadic
