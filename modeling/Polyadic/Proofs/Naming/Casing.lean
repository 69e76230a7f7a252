import Polyadic.Naming
import Mathlib

/-!
# Casing of phrases

`words_cons_of_separator` and `words_cons_of_letter` take a phrase apart from the front, and the lemmas on
`pascalChars` follow. The characters of a name are those of the words and the cases of those
(`exists_of_mem_pascalChars`, `exists_of_mem_camelChars`), and a phrase without separators is one word
(`pascalChars_of_unbroken`). A phrase of letters, digits and underscores gives a name of letters and digits
(`isAlphanum_of_mem_pascalChars`, `isAlphanum_of_mem_camelChars`), which begins with a letter if the first
character that is no separator is one (`StartsWithLetter`).
-/

namespace Polyadic.Naming

/-! ## ASCII -/

section Ascii

variable {c : Char}

/-- The text is written with ASCII characters. -/
def IsAscii (text : List Char) : Prop :=
  ∀ c ∈ text, c.toNat < 128

lemma ascii_forall {P : Char → Prop} (h : ∀ n < 128, P (Char.ofNat n)) (hc : c.toNat < 128) : P c := by
  have := h c.toNat hc
  rwa [Char.ofNat_toNat] at this

lemma toNat_lt_of_isAlphanum (h : c.isAlphanum = true) : c.toNat < 128 := by
  simp only [Char.isAlphanum, Char.isAlpha, Char.isUpper, Char.isLower, Char.isDigit,
    Bool.or_eq_true, Bool.and_eq_true, decide_eq_true_eq, UInt32.le_iff_toNat_le, ge_iff_le] at h
  have upper : 'Z'.val.toNat = 90 := rfl
  have lower : 'z'.val.toNat = 122 := rfl
  have digit : '9'.val.toNat = 57 := rfl
  show c.val.toNat < 128
  omega

lemma isAlphanum_toUpper (hc : c.toNat < 128) : c.toUpper.isAlphanum = c.isAlphanum :=
  ascii_forall (P := fun c => c.toUpper.isAlphanum = c.isAlphanum) (by decide) hc

lemma isAlphanum_toLower (hc : c.toNat < 128) : c.toLower.isAlphanum = c.isAlphanum :=
  ascii_forall (P := fun c => c.toLower.isAlphanum = c.isAlphanum) (by decide) hc

end Ascii

/-! ## Words -/

lemma split_eq_cons (p : Char → Bool) (text : List Char) :
    Text.split p text = text.takeWhile (!p ·) :: (Text.split p text).tail ∧
      (Text.split p text).tail.filter (!·.isEmpty) =
        (Text.split p (text.dropWhile (!p ·))).filter (!·.isEmpty) := by
  induction text with
  | nil => exact ⟨rfl, rfl⟩
  | cons c rest ih =>
    cases hc : p c with
    | true =>
      rw [Text.split_cons_of_pos hc, List.takeWhile_cons_of_neg (by simp [hc]),
        List.dropWhile_cons_of_neg (by simp [hc]), Text.split_cons_of_pos hc]
      exact ⟨rfl, rfl⟩
    | false =>
      obtain ⟨piece, pieces, hrest, hsplit⟩ := Text.split_cons_of_neg hc rest
      rw [hrest] at ih
      rw [hsplit, List.takeWhile_cons_of_pos (by simp [hc]), List.dropWhile_cons_of_pos (by simp [hc])]
      obtain ⟨hpiece, hpieces⟩ := ih
      have first : c :: piece = c :: rest.takeWhile (!p ·) := congrArg (c :: ·) (List.cons.inj hpiece).1
      exact ⟨congrArg (· :: pieces) first, hpieces⟩

lemma words_cons_of_separator {c : Char} (h : isSeparator c = true) (rest : List Char) :
    words (c :: rest) = words rest := by
  rw [words, Text.split_cons_of_pos h]
  rfl

lemma words_cons_of_letter {c : Char} (h : isSeparator c = false) (rest : List Char) :
    words (c :: rest) =
      (c :: rest.takeWhile (!isSeparator ·)) :: words (rest.dropWhile (!isSeparator ·)) := by
  obtain ⟨first, others⟩ := split_eq_cons isSeparator (c :: rest)
  rw [List.takeWhile_cons_of_pos (by simp [h])] at first
  rw [List.dropWhile_cons_of_pos (by simp [h])] at others
  rw [words, words, ← others, first]
  rfl

lemma mem_of_mem_words {phrase word : List Char} (h : word ∈ words phrase) {c : Char} (hc : c ∈ word) :
    c ∈ phrase ∧ isSeparator c = false :=
  Text.mem_of_mem_split (List.mem_filter.mp h).1 hc

/-- The words of a phrase, one after the other, are the phrase without its separators. -/
lemma flatten_words (phrase : List Char) : (words phrase).flatten = phrase.filter (!isSeparator ·) := by
  rw [words, List.flatten_filter_not_isEmpty, Text.flatten_split]

/-! ## Names -/

lemma pascalChars_cons_of_separator {c : Char} (h : isSeparator c = true) (rest : List Char) :
    pascalChars (c :: rest) = pascalChars rest := by
  rw [pascalChars, words_cons_of_separator h, pascalChars]

lemma pascalChars_cons_of_letter {c : Char} (h : isSeparator c = false) (rest : List Char) :
    pascalChars (c :: rest) =
      Text.upper c ++ rest.takeWhile (!isSeparator ·) ++
        pascalChars (rest.dropWhile (!isSeparator ·)) := by
  rw [pascalChars, words_cons_of_letter h, List.flatMap_cons, capitalize, pascalChars]

/-- A phrase without separators is one word, if it is not empty. -/
lemma pascalChars_of_unbroken {phrase : List Char} (unbroken : ∀ c ∈ phrase, isSeparator c = false) :
    pascalChars phrase = capitalize phrase := by
  rw [pascalChars, words, Text.split_of_forall unbroken]
  cases phrase with
  | nil => rfl
  | cons c rest => exact List.append_nil _

/-- Every character of the name is one of a word of the phrase, or it comes of the upper case of one. -/
lemma exists_of_mem_pascalChars {phrase : List Char} {c : Char} (h : c ∈ pascalChars phrase) :
    ∃ d ∈ phrase, isSeparator d = false ∧ (c = d ∨ c ∈ Text.upper d) := by
  obtain ⟨word, hword, hc⟩ := List.mem_flatMap.mp h
  cases word with
  | nil => cases hc
  | cons d rest =>
    obtain first | later := List.mem_append.mp hc
    · obtain ⟨hd, letter⟩ := mem_of_mem_words hword List.mem_cons_self
      exact ⟨d, hd, letter, .inr first⟩
    · obtain ⟨hc, letter⟩ := mem_of_mem_words hword (List.mem_cons_of_mem d later)
      exact ⟨c, hc, letter, .inl rfl⟩

lemma exists_of_mem_camelChars {phrase : List Char} {c : Char} (h : c ∈ camelChars phrase) :
    ∃ d ∈ pascalChars phrase, c = d ∨ c ∈ Text.lower d := by
  unfold camelChars at h
  cases hp : pascalChars phrase with
  | nil =>
    rw [hp] at h
    cases h
  | cons d rest =>
    rw [hp] at h
    obtain first | later := List.mem_append.mp h
    · exact ⟨d, List.mem_cons_self, .inr first⟩
    · exact ⟨c, List.mem_cons_of_mem d later, .inl rfl⟩

/-- The phrase is written with letters, digits and underscores. -/
def IsPlain (phrase : List Char) : Prop :=
  ∀ c ∈ phrase, c.isAlphanum = true ∨ c = '_'

/-- The first character of the phrase that is no separator is a letter. -/
def StartsWithLetter (phrase : List Char) : Prop :=
  (phrase.find? (!isSeparator ·)).any Char.isAlpha = true

instance (phrase : List Char) : Decidable (StartsWithLetter phrase) :=
  inferInstanceAs (Decidable (_ = true))

section Plain

variable {phrase : List Char}

lemma IsPlain.isAscii (h : IsPlain phrase) : IsAscii phrase := by
  intro c hc
  obtain alphanum | rfl := h c hc
  · exact toNat_lt_of_isAlphanum alphanum
  · decide

lemma IsPlain.isAlphanum (h : IsPlain phrase) {c : Char} (hc : c ∈ phrase)
    (separates : isSeparator c = false) : c.isAlphanum = true := by
  obtain alphanum | rfl := h c hc
  · exact alphanum
  · exact absurd separates (by decide)

lemma isAlphanum_of_mem_pascalChars (h : IsPlain phrase) :
    ∀ c ∈ pascalChars phrase, c.isAlphanum = true := by
  intro c hc
  obtain ⟨d, hd, separates, rfl | upper⟩ := exists_of_mem_pascalChars hc
  · exact h.isAlphanum hd separates
  · have ascii := h.isAscii d hd
    rw [Text.upper_of_ascii ascii, List.mem_singleton] at upper
    rw [upper, isAlphanum_toUpper ascii]
    exact h.isAlphanum hd separates

lemma isAlphanum_of_mem_camelChars (h : IsPlain phrase) :
    ∀ c ∈ camelChars phrase, c.isAlphanum = true := by
  intro c hc
  obtain ⟨d, hd, rfl | lower⟩ := exists_of_mem_camelChars hc
  · exact isAlphanum_of_mem_pascalChars h c hd
  · have alphanum := isAlphanum_of_mem_pascalChars h d hd
    have ascii := toNat_lt_of_isAlphanum alphanum
    rw [Text.lower_of_ascii ascii, List.mem_singleton] at lower
    rw [lower, isAlphanum_toLower ascii]
    exact alphanum

lemma head?_pascalChars (ascii : IsAscii phrase) :
    (pascalChars phrase).head? = (phrase.find? (!isSeparator ·)).map Char.toUpper := by
  induction phrase with
  | nil => rfl
  | cons c rest ih =>
    obtain ⟨hc, hrest⟩ := List.forall_mem_cons.mp ascii
    cases separates : isSeparator c with
    | true =>
      rw [pascalChars_cons_of_separator separates, ih hrest, List.find?_cons_of_neg (by simp [separates])]
    | false =>
      rw [pascalChars_cons_of_letter separates, Text.upper_of_ascii hc,
        List.find?_cons_of_pos (by simp [separates])]
      rfl

lemma startsWithLetter_iff_pascalChars (h : IsPlain phrase) :
    StartsWithLetter phrase ↔ (pascalChars phrase).head?.any Char.isAlpha = true := by
  rw [StartsWithLetter, head?_pascalChars h.isAscii]
  cases hc : phrase.find? (!isSeparator ·) with
  | none => rfl
  | some c =>
    show c.isAlpha = true ↔ c.toUpper.isAlpha = true
    rw [Char.isAlpha_toUpper_eq_isAlpha]

lemma startsWithLetter_iff_camelChars (h : IsPlain phrase) :
    StartsWithLetter phrase ↔ (camelChars phrase).head?.any Char.isAlpha = true := by
  rw [startsWithLetter_iff_pascalChars h, camelChars]
  cases hp : pascalChars phrase with
  | nil => rfl
  | cons c rest =>
    have ascii : c.toNat < 128 :=
      toNat_lt_of_isAlphanum (isAlphanum_of_mem_pascalChars h c (hp ▸ List.mem_cons_self))
    rw [decapitalize, Text.lower_of_ascii ascii]
    show c.isAlpha = true ↔ c.toLower.isAlpha = true
    rw [Char.isAlpha_toLower_eq_isAlpha]

end Plain

end Polyadic.Naming
