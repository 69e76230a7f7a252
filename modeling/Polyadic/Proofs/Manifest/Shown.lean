import Polyadic.Proofs.Manifest.Places

/-!
# When a rejection points nowhere

In a document whose keys are written without quotes or dots, on lines of their own under headers, the value of a key
is found behind it (`assignedSpan?_ne_none`). A rejection of such a text shows its place, then, but in two cases: bounds
of which only the upper one is given, and directives whose text is not found (`span_eq_none_iff`).
-/

namespace Polyadic.Manifest

open Text (Span Located byteLength isBlank linesWithEnds lastLine)
open Toml (Key Value Table)

/-! ## Keys on lines of their own -/

section Keys

variable {text : List Char} {key : Key} {value : Located Value} {document : Table Value} {part name : String}

lemma isBlank_of_isSpacing {c : Char} (h : Toml.isSpacing c = true) : isBlank c = true := by
  obtain rfl | rfl := (Bool.or_eq_true _ _ ▸ h : (c == ' ') = true ∨ (c == '\t') = true).imp beq_iff_eq.mp beq_iff_eq.mp
  · decide
  · decide

/-- A line on which a key is written without quotes reads like an assignment to it. -/
lemma exists_assigns {name : List Char} (stands : Toml.Stands text key value)
    (bare : Text.slice? text key.span = some name) (plain : '\n' ∉ name) :
    ∃ line ∈ linesWithEnds text, ∃ value, Assigns name line value := by
  obtain ⟨before, name', gap, gap', written, after, rfl, span, _, start, blank, _⟩ := stands
  have slice := Text.slice?_append before name' (gap ++ '=' :: gap' ++ written ++ after)
  simp only [List.append_assoc] at slice bare
  rw [span, slice] at bare
  cases bare
  obtain ⟨earlier, hbefore, finished⟩ := Text.exists_append_lastLine before
  have indentBlank : ∀ c ∈ lastLine before, isBlank c = true := fun c hc => isBlank_of_isSpacing (start c hc)
  have gapBlank : ∀ c ∈ gap, isBlank c = true := fun c hc => isBlank_of_isSpacing (blank c hc)
  have gapPlain : '\n' ∉ gap := fun feed => absurd (blank _ feed) (by decide)
  have indentPlain : '\n' ∉ lastLine before := Text.not_mem_lastLine before
  generalize lastLine before = indent at *
  subst hbefore
  have startPlain : '\n' ∉ indent ++ name ++ gap ++ ['='] := by
    simp only [List.mem_append, not_or]
    exact ⟨⟨⟨indentPlain, plain⟩, gapPlain⟩, by decide⟩
  obtain ⟨back, line⟩ := Text.exists_line finished (List.append_ne_nil_of_right_ne_nil _ (List.cons_ne_nil '=' []))
    startPlain (gap' ++ written ++ after)
  obtain ⟨gap'', hback, blank', solid⟩ := Text.exists_append_trimStart back
  refine ⟨_, ?_, Text.trimStart back, indent, gap, gap'', rfl, indentBlank, gapBlank, blank', solid⟩
  rw [hback] at line
  simp only [List.append_assoc, List.cons_append, List.nil_append] at line ⊢
  exact line

/-- What a key without quotes is given on a line of its own is found behind it. -/
lemma assignedSpan?_ne_none (bare : Toml.IsBare text) (parsed : Toml.parse? text = some document)
    (given : said? document part name = some value) (plain : ¬ Toml.IsOpened value.item) (other : ¬ value.item.IsTable)
    (solid : IsSolid name.toList) (feed : '\n' ∉ name.toList) : assignedSpan? text name.toList ≠ none := by
  have sound := Toml.parse?_sound parsed
  obtain ⟨opened, stands⟩ := Toml.parse?_stands bare parsed
  obtain ⟨⟨place, whole⟩, hwhole, field⟩ := Option.bind_eq_some_iff.mp given
  rw [ne_eq, assignedSpan?_eq_none_iff solid]
  intro nowhere
  obtain ⟨inner, rfl, _⟩ | ⟨list, rfl⟩ := opened.get? hwhole
  · obtain impossible | ⟨key, stands, bare⟩ := stands _ _ _ _ _ hwhole field
    · exact plain impossible
    · obtain ⟨line, mem, value', assigns⟩ := exists_assigns stands bare feed
      exact nowhere line mem value' assigns
  -- The items of an array that headers make are tables.
  · have items := Toml.Value.sound_array_iff.mp (sound.get? hwhole).sound
    exact other ((items value (mem_of_lookup_zip field)).2 rfl)

end Keys

/-! ## Rejections without a place -/

/-- The rejection has no place that can be found: bounds of which only the upper one is given, as zero, or a directive
that is not sighted anywhere. -/
def Rejection.IsUnsighted (text : List Char) : Rejection → Prop
  | .arity fault => fault = .inverted 1 0 ∧ ∀ span, ¬ AssignedAt text "min".toList span
  | .name given context _ => context = "using in 'csharp'" ∧
      ∀ rank span, ¬ Sighted text "using".toList given.toList rank span
  | .path _ | .malformed | .undecodable _ => False

section Shown

variable {text file file' part name : String} {span : Option Span} {cause : Rejection} {document : Table Value}
  {draft : Draft} {value : Located Value}

/-- What is not the default, and no table or array of tables, is found in a document with bare keys. -/
lemma found_of_decodes {α : Type} {decoder : Decoder α} {default result : α} (bare : Toml.IsBare text.toList)
    (reading : Reading text file document draft)
    (decodes : Decodes decoder default (said? document part name) result) (ne : result ≠ default)
    (plain : ∀ value, decoder value = .ok result → ¬ Toml.IsOpened value.item ∧ ¬ value.item.IsTable)
    (solid : IsSolid name.toList) (feed : '\n' ∉ name.toList) : assignedSpan? text.toList name.toList ≠ none := by
  obtain ⟨value, given, decoded⟩ := decodes.exists_given ne
  obtain ⟨plain, other⟩ := plain value decoded
  exact assignedSpan?_ne_none bare reading.parsed given plain other solid feed

/-- A bound that is not the default is found in a document with bare keys. -/
lemma bound_found (bare : Toml.IsBare text.toList) (reading : Reading text file document draft) {default n : Nat}
    (decodes : Decodes Decoder.byte default (said? document "arity" name) n) (ne : n ≠ default)
    (solid : IsSolid name.toList) (feed : '\n' ∉ name.toList) : assignedSpan? text.toList name.toList ≠ none := by
  refine found_of_decodes bare reading decodes ne (fun value decoded => ?_) solid feed
  rw [byte_eq_ok decoded]
  constructor
  · rintro (⟨_, ⟨⟩, _⟩ | ⟨_, ⟨⟩⟩)
  · rintro ⟨_, ⟨⟩⟩

section Texts

variable {expected default content : String}

/-- A text that is not the default is found in a document with bare keys. -/
lemma text_found (bare : Toml.IsBare text.toList) (reading : Reading text file document draft)
    (decodes : Decodes (Decoder.text expected) default (said? document part name) content)
    (ne : content ≠ default) (solid : IsSolid name.toList) (feed : '\n' ∉ name.toList) :
    assignedSpan? text.toList name.toList ≠ none := by
  refine found_of_decodes bare reading decodes ne (fun value decoded => ?_) solid feed
  rw [text_eq_ok decoded]
  constructor
  · rintro (⟨_, ⟨⟩, _⟩ | ⟨_, ⟨⟩⟩)
  · rintro ⟨_, ⟨⟩⟩

/-- A name that is not the default is found in a document with bare keys. -/
lemma name_found (bare : Toml.IsBare text.toList) (reading : Reading text file document draft)
    (decodes : Decodes (Decoder.text expected) default (said? document part name) content)
    (ne : content ≠ default) (solid : IsSolid name.toList) (feed : '\n' ∉ name.toList) :
    (Context.ofText text file).textSpan? content name ≠ none := by
  rw [textSpan?_eq, ne_eq, Option.or_eq_none_iff]
  exact fun nowhere => text_found bare reading decodes ne solid feed nowhere.2

end Texts

/-- Bounds that make no range show no place exactly if the upper one alone is given, as zero, and no line reads like an
assignment to the lower one. -/
lemma boundSpan_eq_none_iff (bare : Toml.IsBare text.toList) (reading : Reading text file document draft)
    (unmet : ¬ Demand.arities.Met draft) : assignedSpan? text.toList draft.blamedBound.toList = none ↔
      (Rejection.arity draft.boundFault).IsUnsighted text.toList := by
  have min : draft.min ≠ 1 → assignedSpan? text.toList "min".toList ≠ none := fun ne =>
    bound_found bare reading reading.said.min ne rfl (by decide)
  have max : draft.max ≠ 5 → assignedSpan? text.toList "max".toList ≠ none := fun ne =>
    bound_found bare reading reading.said.max ne rfl (by decide)
  have solid : IsSolid "min".toList := rfl
  rw [Demand.Met] at unmet
  rw [Rejection.IsUnsighted, Draft.blamedBound, Draft.boundFault]
  by_cases zero : draft.min = 0
  · rw [if_pos zero, if_neg (by omega)]
    refine iff_of_false (min (by omega)) ?_
    rintro ⟨⟨⟩, _⟩
  · rw [if_neg zero]
    by_cases inverted : draft.max < draft.min
    · rw [if_pos inverted, if_neg (by omega), assignedSpan?_eq_none solid]
      refine ⟨fun nowhere => ⟨?_, nowhere⟩, And.right⟩
      -- The lower bound is met by default if it is not found, and then only zero is smaller.
      have one : draft.min = 1 := by
        by_contra ne
        exact min ne ((assignedSpan?_eq_none solid).mpr nowhere)
      have none : draft.max = 0 := by omega
      rw [one, none]
    · rw [if_neg inverted, if_pos (by omega)]
      refine iff_of_false (max (by omega)) ?_
      rintro ⟨⟨⟩, _⟩

/-- A text with bare keys that is judged and rejected shows no place exactly if the cause is unsighted. -/
theorem span_eq_none_iff (bare : Toml.IsBare text.toList) (judged : cause.IsJudged)
    (rejected : ofText text file = .error (.rejected file' span cause)) :
    span = none ↔ cause.IsUnsighted text.toList := by
  obtain ⟨document, draft, demand, reading, unmet, reports, rfl⟩ := exists_reading judged rejected
  have notMet := unmet.notMet
  cases demand with
  | arities =>
    cases reports
    exact boundSpan_eq_none_iff bare reading notMet
  | pathGiven | pathInside | pathApart =>
    cases reports
    have given := path_ne_default (by decide) notMet
    exact iff_of_false (text_found bare reading reading.said.path given rfl (by decide)) id
  | namespaceName =>
    obtain ⟨fault, _, rfl⟩ := reports
    have given := namespaceName_ne_default notMet
    exact iff_of_false (name_found bare reading reading.said.namespaceName given rfl (by decide))
      fun unsighted => absurd unsighted.1 (by decide)
  | usingName name =>
    obtain ⟨fault, _, rfl⟩ := reports
    have solid : IsSolid "using".toList := rfl
    exact (textSpan?_eq_none file solid).trans (and_iff_right rfl).symm
  | key =>
    obtain ⟨fault, _, rfl⟩ := reports
    have given := key_ne_default notMet
    exact iff_of_false (name_found bare reading reading.said.key given rfl (by decide))
      fun unsighted => absurd unsighted.1 (by decide)

/-- Without a lower bound in the text, the upper one is wrong and nothing is shown. -/
theorem span_eq_none_iff_upper : Toml.IsBare "[arity]\nmax = 0\n".toList ∧
    ofText "[arity]\nmax = 0\n" "mapgen.toml" =
      .error (.rejected "mapgen.toml" none (.arity (.inverted 1 0))) ∧
    ∀ span, ¬ AssignedAt "[arity]\nmax = 0\n".toList "min".toList span := by
  have bare : Toml.IsBare "[arity]\nmax = 0\n".toList := by decide +kernel
  have rejected : ofText "[arity]\nmax = 0\n" "mapgen.toml" =
      .error (.rejected "mapgen.toml" none (.arity (.inverted 1 0))) := by
    decide +kernel
  have judged : (Rejection.arity (.inverted 1 0)).IsJudged := trivial
  obtain ⟨_, nowhere⟩ := (span_eq_none_iff bare judged rejected).mp rfl
  exact ⟨bare, rejected, nowhere⟩

/-- The text of a directive can be written with escapes, and its array is looked for under another key than it has. -/
theorem span_eq_none_escaped : Toml.IsBare "[csharp]\nusings = [\"System\\u002E\\u002ELinq\"]\n".toList ∧
    ofText "[csharp]\nusings = [\"System\\u002E\\u002ELinq\"]\n" "mapgen.toml" =
      .error (.rejected "mapgen.toml" none (.name "System..Linq" "using in 'csharp'" .emptySegment)) := by
  decide +kernel

end Shown

end Polyadic.Manifest
