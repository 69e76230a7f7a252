import Polyadic.Manifest.Locate
import Polyadic.Proofs.Text.Lines

/-!
# What the search in a source finds

The two ways in which a value is looked for in a source, each said of the text alone. The value behind a key is
that of the first line that reads like an assignment to the key (`assignedSpan?_eq_some`), and a text between
quotes is the first that reads like it (`offsetOf?_eq_some`); where nothing is found there is no such place
(`assignedSpan?_eq_none_iff`, `offsetOf?_eq_none_iff`).
-/

namespace Polyadic.Text

section Trimming

variable {front rest text : List Char}

lemma trimStart_append (blank : ∀ c ∈ front, isBlank c = true) (solid : ∀ c ∈ rest.head?, isBlank c = false) :
    trimStart (front ++ rest) = rest := by
  rw [trimStart, List.dropWhile_append_of_pos blank]
  cases rest with
  | nil => rfl
  | cons c rest =>
    rw [List.dropWhile_cons_of_neg]
    rw [solid c rfl]
    decide

lemma exists_append_trimStart (text : List Char) :
    ∃ front, text = front ++ trimStart text ∧ (∀ c ∈ front, isBlank c = true) ∧
      ∀ c ∈ (trimStart text).head?, isBlank c = false := by
  refine ⟨text.takeWhile isBlank, List.takeWhile_append_dropWhile.symm, fun c hc => List.mem_takeWhile_imp hc, ?_⟩
  intro c hc
  have first := List.head?_dropWhile_not isBlank text
  rw [trimStart] at hc
  rw [Option.mem_def.mp hc] at first
  exact first

lemma trimEnd_append (solid : ∀ c ∈ front.getLast?, isBlank c = false) (blank : ∀ c ∈ rest, isBlank c = true) :
    trimEnd (front ++ rest) = front := by
  have solid : ∀ c ∈ front.reverse.head?, isBlank c = false := by
    rw [List.head?_reverse]
    exact solid
  have blank : ∀ c ∈ rest.reverse, isBlank c = true := fun c hc => blank c (List.mem_reverse.mp hc)
  have trimmed := trimStart_append blank solid
  rw [trimStart] at trimmed
  rw [trimEnd, List.reverse_append, trimmed, List.reverse_reverse]

lemma exists_append_trimEnd (text : List Char) :
    ∃ rest, text = trimEnd text ++ rest ∧ (∀ c ∈ rest, isBlank c = true) ∧
      ∀ c ∈ (trimEnd text).getLast?, isBlank c = false := by
  obtain ⟨front, htext, blank, solid⟩ := exists_append_trimStart text.reverse
  rw [trimStart] at htext solid
  refine ⟨front.reverse, ?_, fun c hc => blank c (List.mem_reverse.mp hc), ?_⟩
  · rw [trimEnd, ← List.reverse_append, ← htext, List.reverse_reverse]
  · rw [trimEnd, List.getLast?_reverse]
    exact solid

end Trimming

end Polyadic.Text

namespace Polyadic.Manifest

open Text (Span byteLength isBlank linesWithEnds)

/-! ## Assignments -/

/-- Behind its leading white space the line goes on with the key, white space, if any, and an equals sign; `rest` is
what stands behind the sign. -/
def BehindSign (key line rest : List Char) : Prop :=
  ∃ gap, Text.trimStart line = key ++ gap ++ '=' :: rest ∧ ∀ c ∈ gap, isBlank c = true

/-- The line reads like an assignment of the value to the key: white space, the key, an equals sign and the value,
with more white space on either side of the sign if need be. -/
def Assigns (key line value : List Char) : Prop :=
  ∃ indent gap gap', line = indent ++ key ++ gap ++ '=' :: gap' ++ value ∧
    (∀ c ∈ indent, isBlank c = true) ∧ (∀ c ∈ gap, isBlank c = true) ∧ (∀ c ∈ gap', isBlank c = true) ∧
      ∀ c ∈ value.head?, isBlank c = false

/-- A key that is no white space at its start. -/
def IsSolid (key : List Char) : Prop :=
  key.head?.any (!isBlank ·) = true

section Assignments

variable {key line value text written after : List Char} {span : Span}

lemma behind?_eq_some_iff {first rest : List Char} : behind? first text = some rest ↔ text = first ++ rest := by
  unfold behind?
  split
  · rename_i before
    obtain ⟨rest', rfl⟩ := List.isPrefixOf_iff_prefix.mp before
    rw [List.drop_left, Option.some_inj, List.append_cancel_left_eq]
  · rename_i other
    refine iff_of_false nofun ?_
    rintro rfl
    exact other (List.isPrefixOf_iff_prefix.mpr (List.prefix_append first rest))

lemma assigned?_eq_some_iff_behindSign :
    assigned? key line = some value ↔ ∃ rest, BehindSign key line rest ∧ Text.trimStart rest = value := by
  have sign : ∀ {rest : List Char}, ∀ c ∈ ('=' :: rest).head?, isBlank c = false := by
    rintro rest _ ⟨⟩
    decide
  simp only [assigned?, Option.bind_eq_bind, Option.bind_eq_some_iff, behind?_eq_some_iff, Option.pure_def,
    Option.some_inj]
  constructor
  · rintro ⟨rest, hkey, rest', hsign, rfl⟩
    obtain ⟨gap, hrest, blank, _⟩ := Text.exists_append_trimStart rest
    refine ⟨rest', ⟨gap, ?_, blank⟩, rfl⟩
    rw [hkey, List.append_assoc]
    exact congrArg (key ++ ·) (hrest.trans (congrArg (gap ++ ·) hsign))
  · rintro ⟨rest, ⟨gap, hline, blank⟩, rfl⟩
    refine ⟨gap ++ '=' :: rest, hline.trans (List.append_assoc ..), rest, ?_, rfl⟩
    exact Text.trimStart_append blank sign

lemma assigned?_eq_some_iff (solid : IsSolid key) : assigned? key line = some value ↔ Assigns key line value := by
  rw [assigned?_eq_some_iff_behindSign]
  constructor
  · rintro ⟨rest, ⟨gap, hline, blank'⟩, rfl⟩
    obtain ⟨indent, hindent, blank, _⟩ := Text.exists_append_trimStart line
    obtain ⟨gap', hrest, blank'', start⟩ := Text.exists_append_trimStart rest
    refine ⟨indent, gap, gap', ?_, blank, blank', blank'', start⟩
    calc line = indent ++ (key ++ gap ++ '=' :: rest) := by rw [← hline, ← hindent]
      _ = indent ++ key ++ gap ++ '=' :: rest := by simp only [List.append_assoc]
      _ = indent ++ key ++ gap ++ '=' :: gap' ++ Text.trimStart rest := by
        rw [List.append_assoc _ ('=' :: gap'), List.cons_append, ← hrest]
  · rintro ⟨indent, gap, gap', rfl, blank, blank', blank'', start⟩
    have start' : ∀ c ∈ (key ++ gap ++ '=' :: (gap' ++ value)).head?, isBlank c = false := by
      cases key with
      | nil => cases solid
      | cons d key =>
        rintro _ ⟨⟩
        simpa [IsSolid] using solid
    refine ⟨gap' ++ value, ⟨gap, ?_, blank'⟩, Text.trimStart_append blank'' start⟩
    rw [List.append_assoc, List.append_assoc, List.append_assoc, List.cons_append, ← List.append_assoc key]
    exact Text.trimStart_append blank start'

lemma withoutComment_append (plain : '#' ∉ written) (solid : ∀ c ∈ written.getLast?, isBlank c = false)
    (blank : ∀ c ∈ after.takeWhile (· != '#'), isBlank c = true) : withoutComment (written ++ after) = written := by
  have plain : ∀ c ∈ written, (c != '#') = true := by
    intro c hc
    rw [bne_iff_ne]
    rintro rfl
    exact plain hc
  rw [withoutComment, List.takeWhile_append_of_pos plain, Text.trimEnd_append solid blank]

/-- Behind a value without its comment there are white space and the comment. -/
lemma exists_append_withoutComment (value : List Char) :
    ∃ after, value = withoutComment value ++ after ∧ '#' ∉ withoutComment value ∧
      (∀ c ∈ (withoutComment value).getLast?, isBlank c = false) ∧
      ∀ c ∈ after.takeWhile (· != '#'), isBlank c = true := by
  obtain ⟨rest, hfront, blank, solid⟩ := Text.exists_append_trimEnd (value.takeWhile (· != '#'))
  have plain : ∀ c ∈ value.takeWhile (· != '#'), (c != '#') = true := fun c hc =>
    List.mem_takeWhile_imp (p := (· != '#')) hc
  refine ⟨rest ++ value.dropWhile (· != '#'), ?_, ?_, solid, ?_⟩
  · rw [withoutComment, ← List.append_assoc, ← hfront, List.takeWhile_append_dropWhile]
  · intro comment
    exact absurd (plain '#' (hfront ▸ List.mem_append_left rest comment)) (by decide)
  · have plain : ∀ c ∈ rest, (c != '#') = true := fun c hc => plain c (hfront ▸ List.mem_append_right _ hc)
    rw [List.takeWhile_append_of_pos plain]
    have stop : (value.dropWhile (· != '#')).takeWhile (· != '#') = [] := by
      rw [List.takeWhile_eq_nil_iff]
      exact fun _ => List.dropWhile_get_zero_not (· != '#') value _
    rw [stop, List.append_nil]
    exact blank

end Assignments

/-! ## The first assignment in a text -/

/-- Where a line behind others has a value at its end; the comment behind the value does not belong to it. -/
def spanBehind (front : List (List Char)) (line value : List Char) : Span where
  offset := byteLength front.flatten + (byteLength line - byteLength value)
  length := byteLength (withoutComment value)

/-- A line of the text reads like an assignment to the key, and what it assigns stands at the span. -/
def AssignedAt (text key : List Char) (span : Span) : Prop :=
  ∃ front line back value, linesWithEnds text = front ++ line :: back ∧ Assigns key line value ∧
    span = spanBehind front line value

section First

variable {key text : List Char} {span : Span}

lemma assignedSpanFrom_eq_some_iff {lines : List (List Char)} {offset : Nat} :
    assignedSpanFrom key offset lines = some span ↔
      ∃ front line back value, lines = front ++ line :: back ∧ (∀ l ∈ front, assigned? key l = none) ∧
        assigned? key line = some value ∧
        span = ⟨offset + byteLength front.flatten + (byteLength line - byteLength value),
          byteLength (withoutComment value)⟩ := by
  induction lines generalizing offset with
  | nil =>
    refine iff_of_false nofun ?_
    rintro ⟨front, _, _, _, impossible, _⟩
    cases front <;> cases impossible
  | cons line lines ih =>
    rw [assignedSpanFrom]
    cases hline : assigned? key line with
    | some value =>
      constructor
      · rintro ⟨⟩
        exact ⟨[], line, lines, value, rfl, nofun, hline, rfl⟩
      · rintro ⟨front, line', back, value', hlines, none, some, rfl⟩
        cases front with
        | nil =>
          cases hlines
          cases hline.symm.trans some
          rfl
        | cons first front =>
          cases hlines
          cases hline.symm.trans (none _ List.mem_cons_self)
    | none =>
      dsimp only
      rw [ih]
      constructor
      · rintro ⟨front, line', back, value, rfl, none, some, rfl⟩
        refine ⟨line :: front, line', back, value, rfl, List.forall_mem_cons.mpr ⟨hline, none⟩, some, ?_⟩
        rw [List.flatten_cons, Text.byteLength_append, Nat.add_assoc offset]
      · rintro ⟨front, line', back, value, hlines, none, some, rfl⟩
        cases front with
        | nil =>
          cases hlines
          cases hline.symm.trans some
        | cons first front =>
          cases hlines
          refine ⟨front, line', back, value, rfl, (List.forall_mem_cons.mp none).2, some, ?_⟩
          rw [List.flatten_cons, Text.byteLength_append, ← Nat.add_assoc offset]

lemma assignedSpanFrom_eq_none_iff {lines : List (List Char)} {offset : Nat} :
    assignedSpanFrom key offset lines = none ↔ ∀ line ∈ lines, assigned? key line = none := by
  induction lines generalizing offset with
  | nil => exact iff_of_true rfl nofun
  | cons line lines ih =>
    rw [assignedSpanFrom, List.forall_mem_cons]
    cases hline : assigned? key line with
    | some value => exact iff_of_false nofun fun h => nomatch h.1
    | none => exact ih.trans (and_iff_right rfl).symm

/-- The search finds what the first line assigns that reads like an assignment to the key. -/
theorem assignedSpan?_eq_some_iff (solid : IsSolid key) : assignedSpan? text key = some span ↔
    ∃ front line back value, linesWithEnds text = front ++ line :: back ∧
      (∀ earlier ∈ front, ∀ value, ¬ Assigns key earlier value) ∧ Assigns key line value ∧
        span = spanBehind front line value := by
  rw [assignedSpan?, assignedSpanFrom_eq_some_iff]
  simp only [← assigned?_eq_some_iff solid, Option.eq_none_iff_forall_ne_some, Nat.zero_add, spanBehind, ne_eq]

theorem assignedSpan?_eq_none_iff (solid : IsSolid key) : assignedSpan? text key = none ↔
    ∀ line ∈ linesWithEnds text, ∀ value, ¬ Assigns key line value := by
  rw [assignedSpan?, assignedSpanFrom_eq_none_iff]
  simp only [← assigned?_eq_some_iff solid, Option.eq_none_iff_forall_ne_some, ne_eq]

end First

/-! ## The first occurrence of a text -/

section Occurrences

variable {pattern text : List Char} {offset : Nat}

lemma offsetOf?_eq_none_iff : offsetOf? pattern text = none ↔ ¬ pattern <:+: text := by
  induction text with
  | nil =>
    rw [offsetOf?, List.infix_nil]
    cases pattern with
    | nil => exact iff_of_false nofun fun h => h rfl
    | cons c pattern => exact iff_of_true rfl nofun
  | cons c rest ih =>
    rw [offsetOf?, List.infix_cons_iff, ← List.isPrefixOf_iff_prefix]
    by_cases here : pattern.isPrefixOf (c :: rest) = true
    · rw [if_pos here]
      exact iff_of_false nofun fun h => h (.inl here)
    · rw [if_neg here, Option.map_eq_none_iff, ih, not_or, and_iff_right here]

/-- The search finds the first occurrence. -/
theorem offsetOf?_eq_some (h : offsetOf? pattern text = some offset) :
    (∃ before after, text = before ++ pattern ++ after ∧ offset = byteLength before) ∧
      ∀ before after, text = before ++ pattern ++ after → offset ≤ byteLength before := by
  induction text generalizing offset with
  | nil =>
    rw [offsetOf?] at h
    split at h
    · rename_i empty
      cases h
      obtain rfl := List.isEmpty_iff.mp empty
      exact ⟨⟨[], [], rfl, rfl⟩, fun _ _ _ => Nat.zero_le _⟩
    · cases h
  | cons c rest ih =>
    rw [offsetOf?] at h
    split at h
    · rename_i here
      cases h
      obtain ⟨after, same⟩ := List.isPrefixOf_iff_prefix.mp here
      exact ⟨⟨[], after, same.symm, rfl⟩, fun _ _ _ => Nat.zero_le _⟩
    · rename_i elsewhere
      obtain ⟨offset, found, rfl⟩ := Option.map_eq_some_iff.mp h
      obtain ⟨⟨before, after, rfl, rfl⟩, first⟩ := ih found
      refine ⟨⟨c :: before, after, rfl, rfl⟩, fun before' after' same => ?_⟩
      cases before' with
      | nil => exact absurd (List.isPrefixOf_iff_prefix.mpr ⟨after', same.symm⟩) elsewhere
      | cons d before' =>
        obtain ⟨rfl, later⟩ := List.cons.inj same
        exact Nat.add_le_add_left (first before' after' later) _

end Occurrences

end Polyadic.Manifest
