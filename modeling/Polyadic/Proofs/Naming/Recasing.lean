import Polyadic.Proofs.Naming.Casing

/-!
# Names made of names

A name has no separators any more (`isLetter_of_mem_pascalChars`, `isLetter_of_mem_camelChars`), so as a phrase it is
one word, and only its first character changes when a name is made of it. In this character alone the two names of an
ASCII phrase differ (`names_cases`). So both names of either of them are those of the phrase (`casings_absorb`), and they
determine each other, also when they are escaped (`typeName_eq_iff`).
-/

namespace Polyadic.Naming

/-- The ASCII characters that separate words: white space, the underscore and the hyphen. -/
def separators : List Char :=
  ['\t', '\n', '\x0b', '\x0c', '\r', ' ', '_', '-']

/-- The name has no separators, and it has all other characters of the phrase, in their order and up to case. -/
structure Spells (name phrase : List Char) : Prop where
  unbroken : ∀ c ∈ name, c ∉ separators
  letters : name.map Char.toLower = (phrase.filter (· ∉ separators)).map Char.toLower

/-! ## Characters of words -/

/-- An ASCII character that separates no words. -/
structure IsLetter (c : Char) : Prop where
  ascii : c.toNat < 128
  joins : isSeparator c = false

section Letter

variable {c : Char}

lemma not_isSeparator_eq (ascii : c.toNat < 128) : (!isSeparator c) = decide (c ∉ separators) :=
  ascii_forall (P := fun c => (!isSeparator c) = decide (c ∉ separators)) (by decide) ascii

lemma IsLetter.not_mem_separators (h : IsLetter c) : c ∉ separators := by
  have joins := not_isSeparator_eq h.ascii
  rw [h.joins] at joins
  exact of_decide_eq_true joins.symm

lemma IsLetter.toUpper (h : IsLetter c) : IsLetter c.toUpper where
  ascii := ascii_forall (P := fun c => c.toUpper.toNat < 128) (by decide) h.ascii
  joins := ascii_forall (P := fun c => isSeparator c = false → isSeparator c.toUpper = false) (by decide) h.ascii h.joins

lemma IsLetter.toLower (h : IsLetter c) : IsLetter c.toLower where
  ascii := ascii_forall (P := fun c => c.toLower.toNat < 128) (by decide) h.ascii
  joins := ascii_forall (P := fun c => isSeparator c = false → isSeparator c.toLower = false) (by decide) h.ascii h.joins

end Letter

lemma map_toLower_capitalize {word : List Char} (ascii : IsAscii word) :
    (capitalize word).map Char.toLower = word.map Char.toLower := by
  cases word with
  | nil => rfl
  | cons c rest =>
    rw [capitalize, Text.upper_of_ascii (ascii c List.mem_cons_self), List.singleton_append, List.map_cons,
      Char.toLower_toUpper_eq_toLower, List.map_cons]

section Phrase

variable {phrase : List Char} (ascii : IsAscii phrase)

include ascii

lemma isLetter_of_mem_pascalChars : ∀ c ∈ pascalChars phrase, IsLetter c := by
  intro c hc
  obtain ⟨d, hd, joins, rfl | upper⟩ := exists_of_mem_pascalChars hc
  · exact ⟨ascii c hd, joins⟩
  · have letter : IsLetter d := ⟨ascii d hd, joins⟩
    rw [Text.upper_of_ascii letter.ascii, List.mem_singleton] at upper
    rw [upper]
    exact letter.toUpper

lemma isLetter_of_mem_camelChars : ∀ c ∈ camelChars phrase, IsLetter c := by
  intro c hc
  obtain ⟨d, hd, rfl | lower⟩ := exists_of_mem_camelChars hc
  · exact isLetter_of_mem_pascalChars ascii c hd
  · have letter := isLetter_of_mem_pascalChars ascii d hd
    rw [Text.lower_of_ascii letter.ascii, List.mem_singleton] at lower
    rw [lower]
    exact letter.toLower

/-! ## The two names of a phrase -/

/-- Either there are no words, or the names differ in the case of their first character and in nothing else. -/
lemma names_cases : (pascalChars phrase = [] ∧ camelChars phrase = []) ∨
    ∃ (c : Char) (rest : List Char), IsLetter c ∧
      pascalChars phrase = c.toUpper :: rest ∧ camelChars phrase = c.toLower :: rest := by
  have first := head?_pascalChars ascii
  unfold camelChars
  cases hname : pascalChars phrase with
  | nil => exact .inl ⟨rfl, rfl⟩
  | cons d rest =>
    rw [hname] at first
    -- The name starts with the capital of the first character that is no separator.
    obtain ⟨c, hc, rfl⟩ := Option.map_eq_some_iff.mp first.symm
    have letter : IsLetter c := ⟨ascii c (List.mem_of_find?_eq_some hc), by simpa using List.find?_some hc⟩
    refine .inr ⟨c, rest, letter, rfl, ?_⟩
    rw [decapitalize, Text.lower_of_ascii letter.toUpper.ascii, Char.toLower_toUpper_eq_toLower,
      List.singleton_append]

lemma spells_pascalChars : Spells (pascalChars phrase) phrase where
  unbroken c hc := (isLetter_of_mem_pascalChars ascii c hc).not_mem_separators
  letters := by
    have word_ascii : ∀ word ∈ words phrase, IsAscii word :=
      fun word hword c hc => ascii c (mem_of_mem_words hword hc).1
    -- Up to case the name is its words, and they are the phrase without separators.
    calc (pascalChars phrase).map Char.toLower
      _ = (words phrase).flatMap fun word => (capitalize word).map Char.toLower := List.map_flatMap
      _ = (words phrase).flatMap fun word => word.map Char.toLower :=
        List.flatMap_congr fun word hword => map_toLower_capitalize (word_ascii word hword)
      _ = (words phrase).flatten.map Char.toLower := by rw [List.map_flatten, List.flatMap_def]
      _ = (phrase.filter (!isSeparator ·)).map Char.toLower := by rw [flatten_words]
      _ = (phrase.filter (· ∉ separators)).map Char.toLower := by
        rw [List.filter_congr fun c hc => not_isSeparator_eq (ascii c hc)]

lemma spells_camelChars : Spells (camelChars phrase) phrase where
  unbroken c hc := (isLetter_of_mem_camelChars ascii c hc).not_mem_separators
  letters := by
    rw [← (spells_pascalChars ascii).letters]
    obtain ⟨noPascal, noCamel⟩ | ⟨c, rest, _, hpascal, hcamel⟩ := names_cases ascii
    · rw [noPascal, noCamel]
    · rw [hpascal, hcamel, List.map_cons, List.map_cons, Char.toLower_toLower_eq_toLower,
        Char.toLower_toUpper_eq_toLower]

/-! ## The names of names -/

lemma pascalChars_pascalChars : pascalChars (pascalChars phrase) = pascalChars phrase := by
  rw [pascalChars_of_unbroken fun c hc => (isLetter_of_mem_pascalChars ascii c hc).joins]
  obtain ⟨noPascal, _⟩ | ⟨c, rest, letter, hpascal, _⟩ := names_cases ascii
  · rw [noPascal, capitalize]
  · rw [hpascal, capitalize, Text.upper_of_ascii letter.toUpper.ascii, Char.toUpper_toUpper_eq_toUpper,
      List.singleton_append]

lemma pascalChars_camelChars : pascalChars (camelChars phrase) = pascalChars phrase := by
  rw [pascalChars_of_unbroken fun c hc => (isLetter_of_mem_camelChars ascii c hc).joins]
  obtain ⟨noPascal, noCamel⟩ | ⟨c, rest, letter, hpascal, hcamel⟩ := names_cases ascii
  · rw [noPascal, noCamel, capitalize]
  · rw [hpascal, hcamel, capitalize, Text.upper_of_ascii letter.toLower.ascii, Char.toUpper_toLower_eq_toUpper,
      List.singleton_append]

end Phrase

section Names

variable {phrase other name : String}

lemma toList_name (h : name ∈ [pascal phrase, camel phrase]) :
    name.toList = pascalChars phrase.toList ∨ name.toList = camelChars phrase.toList := by
  obtain rfl | h := List.mem_cons.mp h
  · exact .inl (toList_pascal phrase)
  · rw [List.mem_singleton.mp h]
    exact .inr (toList_camel phrase)

variable (ascii : IsAscii phrase.toList)

include ascii

lemma spells_name (h : name ∈ [pascal phrase, camel phrase]) : Spells name.toList phrase.toList := by
  obtain chars | chars := toList_name h
  · rw [chars]
    exact spells_pascalChars ascii
  · rw [chars]
    exact spells_camelChars ascii

lemma pascalChars_name (h : name ∈ [pascal phrase, camel phrase]) :
    pascalChars name.toList = pascalChars phrase.toList := by
  obtain chars | chars := toList_name h
  · rw [chars, pascalChars_pascalChars ascii]
  · rw [chars, pascalChars_camelChars ascii]

/-- Each of the two names determines the other one. -/
lemma pascal_eq_iff (ascii' : IsAscii other.toList) : pascal phrase = pascal other ↔ camel phrase = camel other := by
  rw [pascal, pascal, camel, camel, String.ofList_inj, String.ofList_inj]
  constructor
  · intro same
    rw [camelChars, same, camelChars]
  · intro same
    rw [← pascalChars_camelChars ascii, same, pascalChars_camelChars ascii']

end Names

/-- A name of an ASCII phrase has both names of the phrase again, and it is spelled with the characters of the phrase
that separate no words. So the two names of a phrase determine each other. -/
theorem casings_absorb {phrase : String} (ascii : IsAscii phrase.toList) :
    (∀ name ∈ [pascal phrase, camel phrase],
      pascal name = pascal phrase ∧ camel name = camel phrase ∧ Spells name.toList phrase.toList) ∧
    ∀ other : String, IsAscii other.toList → (pascal phrase = pascal other ↔ camel phrase = camel other) := by
  constructor
  · intro name hname
    have again := pascalChars_name ascii hname
    refine ⟨?_, ?_, spells_name ascii hname⟩
    · rw [pascal, again, pascal]
    · rw [camel, camelChars, again, camel, camelChars]
  · intro other ascii'
    exact pascal_eq_iff ascii ascii'

/-- Separators of several kinds, one of them in front of the first word, and a word that starts with a digit. -/
theorem casings_absorb_rowKey :
    IsAscii "_row\tkey-2nd".toList ∧ pascal "_row\tkey-2nd" = "RowKey2nd" ∧ camel "_row\tkey-2nd" = "rowKey2nd" ∧
    (∀ name ∈ ["RowKey2nd", "rowKey2nd"],
      pascal name = "RowKey2nd" ∧ camel name = "rowKey2nd" ∧ Spells name.toList "_row\tkey-2nd".toList) ∧
    IsAscii "Row Key2nd".toList ∧
    (pascal "_row\tkey-2nd" = pascal "Row Key2nd" ↔ camel "_row\tkey-2nd" = camel "Row Key2nd") := by
  have ascii : IsAscii "_row\tkey-2nd".toList := by simp [IsAscii]
  have ascii' : IsAscii "Row Key2nd".toList := by simp [IsAscii]
  have hpascal : pascal "_row\tkey-2nd" = "RowKey2nd" := by cbv
  have hcamel : camel "_row\tkey-2nd" = "rowKey2nd" := by cbv
  obtain ⟨names, others⟩ := casings_absorb ascii
  have determined := others "Row Key2nd" ascii'
  rw [hpascal, hcamel] at names
  exact ⟨ascii, hpascal, hcamel, names, ascii', determined⟩

/-- The small form of a letter beyond ASCII may be two characters, of which only the first is capitalised again. -/
example : camel "\u0130" = "i\u0307" ∧ pascal (camel "\u0130") = "I\u0307" ∧ pascal "\u0130" = "\u0130" := by
  decide +kernel

/-! ## Escaped names -/

lemma Spells.at_mem {name phrase : List Char} (h : Spells name phrase) (ascii : IsAscii phrase) (hname : '@' ∈ name) :
    '@' ∈ phrase := by
  have lower : '@'.toLower ∈ name.map Char.toLower := List.mem_map_of_mem hname
  rw [h.letters] at lower
  obtain ⟨c, hc, same⟩ := List.mem_map.mp lower
  have hphrase := List.mem_of_mem_filter hc
  have same : c = '@' :=
    ascii_forall (P := fun c => c.toLower = '@'.toLower → c = '@') (by decide) (ascii c hphrase) same
  exact same ▸ hphrase

lemma filter_safe {name : String} (unescaped : '@' ∉ name.toList) :
    (safe name).toList.filter (· ≠ '@') = name.toList := by
  have own : name.toList.filter (· ≠ '@') = name.toList :=
    List.filter_eq_self.mpr fun c hc => decide_eq_true (ne_of_mem_of_not_mem hc unescaped)
  unfold safe
  split
  · rw [String.toList_append, List.filter_append, own]
    rfl
  · exact own

lemma safe_inj {name other : String} (unescaped : '@' ∉ name.toList) (unescaped' : '@' ∉ other.toList) :
    safe name = safe other ↔ name = other := by
  constructor
  · intro same
    rw [← String.toList_inj, ← filter_safe unescaped, same, filter_safe unescaped']
  · rintro rfl
    rfl

/-- Names keep determining each other once they are escaped, if the phrases have no sign that looks like an escape. -/
theorem typeName_eq_iff {phrase other : String} (ascii : IsAscii phrase.toList) (ascii' : IsAscii other.toList)
    (unescaped : '@' ∉ phrase.toList) (unescaped' : '@' ∉ other.toList) :
    typeName phrase = typeName other ↔ parameterName phrase = parameterName other := by
  have plain : ∀ name ∈ [pascal phrase, camel phrase], '@' ∉ name.toList :=
    fun _ hname => mt ((spells_name ascii hname).at_mem ascii) unescaped
  have plain' : ∀ name ∈ [pascal other, camel other], '@' ∉ name.toList :=
    fun _ hname => mt ((spells_name ascii' hname).at_mem ascii') unescaped'
  simp only [List.forall_mem_cons] at plain plain'
  rw [typeName, typeName, parameterName, parameterName, safe_inj plain.1 plain'.1, safe_inj plain.2.1 plain'.2.1]
  exact pascal_eq_iff ascii ascii'

/-- The escaped name of one phrase may be the plain name of another one. -/
example : parameterName "@base" = parameterName "base" ∧ typeName "@base" = "@base" ∧ typeName "base" = "Base" := by
  decide +kernel

end Polyadic.Naming
