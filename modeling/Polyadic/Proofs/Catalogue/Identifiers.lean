import Polyadic.Catalogue.CompositeKey
import Polyadic.Proofs.Manifest.Accepted
import Polyadic.Proofs.Naming.Casing
import Mathlib

/-!
# Identifiers among the names of a key

The names of a component are made from the base phrase and a number (`mem_components`). The base of an
accepted manifest is plain, so its names are of letters and digits, and all that can keep one from being an
identifier is a digit in front or no character at all (`isIdentifier_safe_iff`). The type names have their own
first letter; for the others it comes down to the base (`isIdentifier_names_iff`).
-/

namespace Polyadic

open Naming

/-- A name without the sign that may stand before it. -/
def bare : List Char → List Char
  | '@' :: name => name
  | name => name

/-- A name that can be declared: letters, digits and underscores after the sign, if there is one, with no
digit first, and no reserved word without the sign. -/
structure IsIdentifier (name : List Char) : Prop where
  plain : IsPlain (bare name)
  start : ∃ c rest, bare name = c :: rest ∧ c.isDigit = false
  unreserved : name.head? ≠ some '@' → isReservedWord name = false

section Safe

variable {name : List Char}

lemma bare_cons {c : Char} (h : c ≠ '@') (rest : List Char) : bare (c :: rest) = c :: rest := by
  rw [bare]
  rintro _ ⟨rfl, rfl⟩
  exact h rfl

lemma isAlpha_of_isReservedWord (h : isReservedWord name = true) :
    ∃ c rest, name = c :: rest ∧ c.isAlpha = true := by
  have letters : ∀ word ∈ reservedWords.map String.toList, word.head?.any Char.isAlpha = true := by
    decide
  have first := letters name (List.contains_iff_mem.mp h)
  cases name with
  | nil => cases first
  | cons c rest => exact ⟨c, rest, rfl, first⟩

lemma isDigit_eq_false_iff {c : Char} (h : c.isAlphanum = true) : c.isDigit = false ↔ c.isAlpha = true :=
  ascii_forall (P := fun c => c.isAlphanum = true → (c.isDigit = false ↔ c.isAlpha = true))
    (by decide) (toNat_lt_of_isAlphanum h) h

/-- Of the names of letters and digits, those that start with a letter are identifiers once escaped. -/
lemma isIdentifier_safe_iff {name : String} (letters : ∀ c ∈ name.toList, c.isAlphanum = true) :
    IsIdentifier (safe name).toList ↔ name.toList.head?.any Char.isAlpha = true := by
  have plain : IsPlain name.toList := fun c hc => .inl (letters c hc)
  unfold safe
  split
  -- A reserved word starts with a letter, so both sides hold.
  · rename_i reserved
    obtain ⟨c, rest, hname, alpha⟩ := isAlpha_of_isReservedWord reserved
    have digit := (isDigit_eq_false_iff (letters c (hname ▸ List.mem_cons_self))).mpr alpha
    have text : ("@" ++ name).toList = '@' :: c :: rest := by
      rw [String.toList_append, hname]
      rfl
    rw [text, hname]
    rw [hname] at plain
    constructor
    · exact fun _ => alpha
    · exact fun _ => ⟨plain, ⟨c, rest, rfl, digit⟩, fun unescaped => absurd rfl unescaped⟩
  · rename_i unreserved
    cases hname : name.toList with
    | nil =>
      constructor
      · rintro ⟨_, ⟨_, _, empty, _⟩, _⟩
        cases empty
      · nofun
    | cons c rest =>
      rw [hname] at letters plain unreserved
      have alphanum := letters c List.mem_cons_self
      have hbare : bare (c :: rest) = c :: rest := bare_cons (by rintro rfl; cases alphanum) rest
      rw [List.head?_cons, Option.any_some, ← isDigit_eq_false_iff alphanum]
      constructor
      · rintro ⟨_, ⟨d, _, hd, digit⟩, _⟩
        rw [hbare] at hd
        cases hd
        exact digit
      · intro digit
        have unreserved := Bool.eq_false_of_not_eq_true unreserved
        exact ⟨hbare.symm ▸ plain, ⟨c, rest, hbare, digit⟩, fun _ => unreserved⟩

end Safe

namespace KeyComponent

variable {phrase comparer : String}

lemma toList_type : (ofPhrase phrase comparer).type.toList = 'T' :: pascalChars phrase.toList := by
  simp only [ofPhrase, pascal, String.toList_append, String.toList_ofList]
  rfl

lemma isIdentifier_type (h : IsPlain phrase.toList) :
    IsIdentifier (ofPhrase phrase comparer).type.toList := by
  have noT : ∀ word ∈ reservedWords.map String.toList, word.head? ≠ some 'T' := by decide
  have letters := isAlphanum_of_mem_pascalChars h
  rw [toList_type]
  constructor
  · exact List.forall_mem_cons.mpr ⟨.inl rfl, fun c hc => .inl (letters c hc)⟩
  · exact ⟨'T', _, rfl, rfl⟩
  · intro _
    rw [isReservedWord, List.contains_eq_mem, decide_eq_false_iff_not]
    exact fun reserved => noT _ reserved rfl

lemma isIdentifier_parameter_iff (h : IsPlain phrase.toList) :
    IsIdentifier (ofPhrase phrase comparer).parameter.toList ↔ StartsWithLetter phrase.toList := by
  rw [startsWithLetter_iff_camelChars h, ← toList_camel]
  simp only [ofPhrase, parameterName]
  exact isIdentifier_safe_iff (toList_camel phrase ▸ isAlphanum_of_mem_camelChars h)

lemma isIdentifier_property_iff (h : IsPlain phrase.toList) :
    IsIdentifier (ofPhrase phrase comparer).property.toList ↔ StartsWithLetter phrase.toList := by
  rw [startsWithLetter_iff_pascalChars h, ← toList_pascal]
  simp only [ofPhrase, typeName]
  exact isIdentifier_safe_iff (toList_pascal phrase ▸ isAlphanum_of_mem_pascalChars h)

end KeyComponent

namespace CompositeKey

lemma mem_components {arity : Nat} {base : String} {c : KeyComponent}
    (h : c ∈ (ofBase arity base).components) :
    ∃ number : List Char, (∀ d ∈ number, d.isDigit = true) ∧
      c = .ofPhrase (base ++ String.ofList number) ("comparer" ++ String.ofList number) := by
  unfold ofBase at h
  dsimp only at h
  split at h
  · rw [List.mem_singleton] at h
    refine ⟨[], nofun, h.trans ?_⟩
    rw [String.ofList_nil, String.append_empty, String.append_empty]
  · obtain ⟨index, _, rfl⟩ := List.mem_map.mp h
    exact ⟨Nat.toDigits 10 index, fun d hd => Nat.isDigit_of_mem_toDigits (by decide) (by decide) hd, rfl⟩

variable {base : String} {number : List Char}

lemma isPlain_append_number (h : IsPlain base.toList) (digits : ∀ d ∈ number, d.isDigit = true) :
    IsPlain (base ++ String.ofList number).toList := by
  rw [String.toList_append, String.toList_ofList]
  intro c hc
  obtain hbase | hnumber := List.mem_append.mp hc
  · exact h c hbase
  · exact .inl (Bool.or_eq_true_iff.mpr (.inr (digits c hnumber)))

/-- A number behind a phrase does not change whether it starts with a letter, not even if it becomes the
start. -/
lemma startsWithLetter_append_number (digits : ∀ d ∈ number, d.isDigit = true) :
    StartsWithLetter (base ++ String.ofList number).toList ↔ StartsWithLetter base.toList := by
  rw [String.toList_append, String.toList_ofList, StartsWithLetter, StartsWithLetter, List.find?_append]
  cases base.toList.find? (!isSeparator ·) with
  | some c => rfl
  -- The base is of underscores alone, and the name starts where the number does.
  | none =>
    cases hd : number.find? (!isSeparator ·) with
    | none => rfl
    | some d =>
      have digit := digits d (List.mem_of_find?_eq_some hd)
      have alphanum : d.isAlphanum = true := Bool.or_eq_true_iff.mpr (.inr digit)
      constructor
      · intro alpha
        exact absurd digit (Bool.eq_false_iff.mp ((isDigit_eq_false_iff alphanum).mpr alpha))
      · rintro ⟨⟩

end CompositeKey

namespace Manifest

lemma IsValid.isPlain_key {manifest : Manifest} (h : manifest.IsValid) :
    IsPlain manifest.names.key.toList := by
  intro c hc
  have letter := isNameChar_of_nameFault? (keyFault?_eq_none h.key).1 c hc
  rwa [isNameChar, Bool.or_eq_true, beq_iff_eq] at letter

/-- The type names of an accepted manifest are identifiers; its parameters and properties are so just when the
first character of the base that is no underscore is a letter. -/
theorem isIdentifier_names_iff {text file : String} {manifest : Manifest}
    (accepted : ofText text file = .ok manifest) (arity : Nat) {c : KeyComponent}
    (hc : c ∈ (CompositeKey.ofBase arity manifest.names.key).components) :
    IsIdentifier c.type.toList ∧
      (IsIdentifier c.parameter.toList ↔ StartsWithLetter manifest.names.key.toList) ∧
      (IsIdentifier c.property.toList ↔ StartsWithLetter manifest.names.key.toList) := by
  have key := (IsValid.of_ofText accepted).isPlain_key
  obtain ⟨number, digits, rfl⟩ := CompositeKey.mem_components hc
  have plain := CompositeKey.isPlain_append_number key digits
  have start : StartsWithLetter _ ↔ StartsWithLetter manifest.names.key.toList :=
    CompositeKey.startsWithLetter_append_number digits
  refine ⟨KeyComponent.isIdentifier_type plain, ?_, ?_⟩
  · exact (KeyComponent.isIdentifier_parameter_iff plain).trans start
  · exact (KeyComponent.isIdentifier_property_iff plain).trans start

theorem isIdentifier_names_rowKey :
    ofText "[csharp]\nkey = \"_row_key2\"\n" "mapgen.toml" = .ok { names := { key := "_row_key2" } } ∧
      ∀ c ∈ (CompositeKey.ofBase 3 "_row_key2").components,
        IsIdentifier c.type.toList ∧ IsIdentifier c.parameter.toList ∧ IsIdentifier c.property.toList := by
  have accepted :
      ofText "[csharp]\nkey = \"_row_key2\"\n" "mapgen.toml" = .ok { names := { key := "_row_key2" } } := by
    decide +kernel
  have start : StartsWithLetter "_row_key2".toList := by decide +kernel
  refine ⟨accepted, fun c hc => ?_⟩
  obtain ⟨type, parameter, property⟩ := isIdentifier_names_iff accepted 3 hc
  exact ⟨type, parameter.mpr start, property.mpr start⟩

theorem not_isIdentifier_underscore :
    ∃ manifest, ofText "[csharp]\nkey = \"_\"\n" "mapgen.toml" = .ok manifest ∧
      1 ∈ manifest.arities.toList ∧
      ∃ c ∈ (CompositeKey.ofBase 1 manifest.names.key).components,
        ¬ IsIdentifier c.parameter.toList ∧ ¬ IsIdentifier c.property.toList := by
  refine ⟨{ names := { key := "_" } }, by decide +kernel, by decide, .ofPhrase "_" "comparer", ?_⟩
  refine ⟨List.mem_singleton_self _, ?_⟩
  have empty : ¬ IsIdentifier "".toList := by
    rintro ⟨_, ⟨_, _, none, _⟩, _⟩
    cases none
  have parameter : (KeyComponent.ofPhrase "_" "comparer").parameter = "" := by decide +kernel
  have property : (KeyComponent.ofPhrase "_" "comparer").property = "" := by decide +kernel
  rw [parameter, property]
  exact ⟨empty, empty⟩

end Manifest

end Polyadic
