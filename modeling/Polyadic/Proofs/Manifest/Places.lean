import Polyadic.Proofs.Manifest.Demands
import Polyadic.Proofs.Manifest.Search

/-!
# Where a rejection points

The place of a rejection is found by a search in the text, and the value that is rejected has its place in the
document. The two are the same for a bound or a path exactly when the value stands alone behind its key
(`field_span_iff`), and the one lies in the other for a name exactly when what the search finds first lies there
(`name_span_within_iff`).
-/

namespace Polyadic.Manifest

open Text (Span Located byteLength isBlank linesWithEnds)
open Toml (Value Table InText)

/-! ## Rejections -/

/-- The text is rejected for what it says, not for how it is written. -/
def Rejection.IsJudged : Rejection → Prop
  | .malformed | .undecodable _ => False
  | .arity _ | .name .. | .path _ => True

section Rejections

variable {text file file' : String} {span : Option Span} {cause : Rejection}

/-- A text that is judged is read, and rejected for the first demand that is not met. -/
lemma exists_reading (judged : cause.IsJudged) (rejected : ofText text file = .error (.rejected file' span cause)) :
    ∃ document draft demand, Reading text file document draft ∧ FirstUnmet draft demand ∧
      demand.Reports draft cause ∧ span = demand.span? (.ofText text file) draft := by
  cases said : Draft.ofText text file with
  | error error =>
    rw [ofText, said] at rejected
    cases rejected
    unfold Draft.ofText at said
    split at said
    · cases said
      cases judged
    · split at said
      · cases said
        cases judged
      · cases said
  | ok draft =>
    obtain ⟨document, reading⟩ := draft.exists_reading said
    rw [ofText, said] at rejected
    obtain ⟨demand, unmet, cause, reports, ⟨⟩⟩ := Draft.judge_eq_error_iff.mp rejected
    exact ⟨document, draft, demand, reading, unmet, reports, rfl⟩

end Rejections

/-! ## Values behind their keys -/

/-- The value at the span is all that the first line with an assignment to the key has behind the equals sign, but for
blanks and a comment. -/
def StandsAlone (text key : List Char) (span : Span) : Prop :=
  ∃ earlier line later indent gap gap' written after, linesWithEnds text = earlier ++ line :: later ∧
    (∀ line ∈ earlier, ∀ value, ¬ Assigns key line value) ∧
    line = indent ++ key ++ gap ++ '=' :: gap' ++ written ++ after ∧
    span = ⟨byteLength (earlier.flatten ++ (indent ++ key ++ gap ++ '=' :: gap')), byteLength written⟩ ∧
    (∀ c ∈ indent, isBlank c = true) ∧ (∀ c ∈ gap, isBlank c = true) ∧ (∀ c ∈ gap', isBlank c = true) ∧
    written ≠ [] ∧ (∀ c ∈ written.head?, isBlank c = false) ∧ (∀ c ∈ written.getLast?, isBlank c = false) ∧
    '#' ∉ written ∧ ∀ c ∈ after.takeWhile (· != '#'), isBlank c = true

section Alone

variable {text key : List Char} {span : Span}

/-- The search finds a stretch of the text exactly when it stands alone. -/
lemma assignedSpan?_eq_some_iff_standsAlone (solid : IsSolid key) (inText : InText text span) :
    assignedSpan? text key = some span ↔ StandsAlone text key span := by
  rw [assignedSpan?_eq_some_iff solid]
  constructor
  · rintro ⟨earlier, line, later, value, hlines, first, ⟨indent, gap, gap', rfl, blank, blank', blank'', start⟩, hspan⟩
    obtain ⟨after, hvalue, plain, last, rest⟩ := exists_append_withoutComment value
    have some : withoutComment value ≠ [] := by
      obtain ⟨before, part, behind, _, some, same⟩ := inText
      rw [same, spanBehind, Span.mk.injEq] at hspan
      intro none
      rw [none] at hspan
      exact some (Text.byteLength_eq_zero.mp hspan.2)
    refine ⟨earlier, _, later, indent, gap, gap', withoutComment value, after, hlines, first, ?_, ?_, blank, blank',
      blank'', some, ?_, last, plain, rest⟩
    · rw [List.append_assoc _ (withoutComment value), ← hvalue]
    · rw [hspan, spanBehind]
      simp only [Text.byteLength_append, Span.mk.injEq, and_true]
      omega
    · rw [hvalue] at start
      cases written : withoutComment value with
      | nil => exact absurd written some
      | cons c front =>
        rw [written] at start
        exact start
  · rintro ⟨earlier, line, later, indent, gap, gap', written, after, hlines, first, rfl, hspan, blank, blank', blank'',
      some, head, last, plain, rest⟩
    refine ⟨earlier, _, later, written ++ after, hlines, first, ⟨indent, gap, gap', ?_, blank, blank', blank'', ?_⟩, ?_⟩
    · rw [List.append_assoc _ written]
    · cases written with
      | nil => exact absurd rfl some
      | cons c written => exact head
    · rw [hspan, spanBehind, withoutComment_append plain last rest]
      simp only [Text.byteLength_append, Span.mk.injEq, and_true]
      omega

end Alone

/-- The section and the field whose value a rejection rejects, unless it is a name. -/
def Rejection.field? : Rejection → Option (String × String)
  | .arity (.tooLarge _) => some ("arity", "max")
  | .arity .zero | .arity (.inverted ..) => some ("arity", "min")
  | .path _ => some ("output", "path")
  | _ => none

section Fields

variable {text file file' part name : String} {span : Span} {cause : Rejection}

/-- A rejected bound or path is looked for under its own name. -/
lemma span?_of_field {draft : Draft} {demand : Demand} (reports : demand.Reports draft cause)
    (unmet : ¬ demand.Met draft) (field : cause.field? = some (part, name)) :
    demand.span? (.ofText text file) draft = assignedSpan? text.toList name.toList ∧
      IsSolid name.toList := by
  cases demand with
  | arities =>
    cases reports
    rw [Demand.span?, Draft.blamedBound]
    rw [Draft.boundFault] at field
    rw [Demand.Met] at unmet
    split at field
    · cases field
      rw [if_neg (by omega)]
      exact ⟨rfl, rfl⟩
    · split at field
      · cases field
        rw [if_neg (by omega)]
        exact ⟨rfl, rfl⟩
      · cases field
        rw [if_pos (by omega)]
        exact ⟨rfl, rfl⟩
  | pathGiven | pathInside | pathApart =>
    cases reports
    cases field
    exact ⟨rfl, rfl⟩
  | namespaceName | usingName | key =>
    obtain ⟨_, _, rfl⟩ := reports
    cases field

/-- When a bound or the path is rejected at a place, this is the place of its value in the document exactly if the
value stands alone behind its key. -/
theorem field_span_iff (field : cause.field? = some (part, name))
    (rejected : ofText text file = .error (.rejected file' (some span) cause)) :
    ∃ document draft, Reading text file document draft ∧
      ((∃ value, said? document part name = some value ∧ value.span = span) ↔
        ∃ value, said? document part name = some value ∧ StandsAlone text.toList name.toList value.span) := by
  have judged : cause.IsJudged := by
    cases cause with
    | malformed | undecodable => cases field
    | arity | name | path => trivial
  obtain ⟨document, draft, demand, reading, unmet, reports, place⟩ := exists_reading judged rejected
  obtain ⟨found, solid⟩ := span?_of_field reports unmet.notMet field
  rw [found] at place
  refine ⟨document, draft, reading, exists_congr fun value => and_congr_right fun said => ?_⟩
  rw [← assignedSpan?_eq_some_iff_standsAlone solid (said?_placed reading.sound said).place, ← place, Option.some_inj]
  exact eq_comm

/-- Of bounds that are inverted the lower one is shown, which stands alone behind its key. -/
theorem field_span_iff_inverted : ∃ document draft value,
    Reading "[arity]\nmin = 4\nmax = 2\n" "mapgen.toml" document draft ∧
      said? document "arity" "min" = some value ∧ value.span = ⟨14, 1⟩ ∧
      StandsAlone "[arity]\nmin = 4\nmax = 2\n".toList "min".toList value.span := by
  have rejected : ofText "[arity]\nmin = 4\nmax = 2\n" "mapgen.toml" =
      .error (.rejected "mapgen.toml" (some ⟨14, 1⟩) (.arity (.inverted 4 2))) := by
    decide +kernel
  have place : ((Toml.parse? "[arity]\nmin = 4\nmax = 2\n".toList).bind fun document =>
      (said? document "arity" "min").map (·.span)) = some ⟨14, 1⟩ := by
    decide +kernel
  obtain ⟨document, draft, reading, same⟩ := field_span_iff rfl rejected
  rw [reading.parsed] at place
  obtain ⟨value, said, span⟩ := Option.map_eq_some_iff.mp place
  obtain ⟨value', said', alone⟩ := same.mp ⟨value, said, span⟩
  cases said.symm.trans said'
  exact ⟨document, draft, value, reading, said, span, alone⟩

/-- A number sign between quotes starts no comment, but the search takes it for one. -/
theorem field_span_numberSign :
    ofText "[output]\npath = \"../a#b\"\n" "mapgen.toml" =
      .error (.rejected "mapgen.toml" (some ⟨16, 5⟩) (.path .outside)) ∧
    ((Toml.parse? "[output]\npath = \"../a#b\"\n".toList).bind fun document =>
      (said? document "output" "path").map (·.span)) = some ⟨16, 8⟩ := by
  decide +kernel

end Fields

/-! ## Names in a text -/

/-- The text stands between two quotes at the span. -/
def QuotedAt (quote : Char) (text name : List Char) (span : Span) : Prop :=
  ∃ before after, text = before ++ (quote :: name ++ [quote]) ++ after ∧ span = ⟨byteLength before + 1, byteLength name⟩

/-- The places that a name of some kind can be taken to have, in the order in which they are looked for: where it stands
between double quotes, where it stands between single ones, and where a line assigns to the kind. -/
def Sighted (text kind name : List Char) : Fin 3 → Span → Prop
  | 0 => QuotedAt '"' text name
  | 1 => QuotedAt '\'' text name
  | 2 => AssignedAt text kind

/-- The first stretch lies in the second. -/
def Within (inner outer : Span) : Prop :=
  outer.offset ≤ inner.offset ∧ inner.offset + inner.length ≤ outer.offset + outer.length

section Sightings

variable {text kind name : List Char} {quote : Char} {span : Span}

/-- One sighting starts and ends no later than another. -/
def NoLater (span other : Span) : Prop :=
  span.offset ≤ other.offset ∧ span.offset + span.length ≤ other.offset + other.length

lemma quotedSpan?_eq_none : quotedSpan? quote text name = none ↔ ∀ span, ¬ QuotedAt quote text name span := by
  rw [quotedSpan?, Option.map_eq_none_iff, offsetOf?_eq_none_iff]
  constructor
  · rintro h span ⟨before, after, rfl, _⟩
    exact h ⟨before, after, rfl⟩
  · rintro h ⟨before, after, same⟩
    exact h _ ⟨before, after, same.symm, rfl⟩

lemma quotedSpan?_eq_some (h : quotedSpan? quote text name = some span) :
    QuotedAt quote text name span ∧ ∀ other, QuotedAt quote text name other → NoLater span other := by
  obtain ⟨offset, found, rfl⟩ := Option.map_eq_some_iff.mp h
  obtain ⟨⟨before, after, htext, rfl⟩, first⟩ := offsetOf?_eq_some found
  refine ⟨⟨before, after, htext, rfl⟩, ?_⟩
  rintro other ⟨before', after', htext', rfl⟩
  have := first before' after' htext'
  exact ⟨Nat.add_le_add_right this 1, by dsimp only; omega⟩

lemma assignedSpan?_eq_none (solid : IsSolid kind) :
    assignedSpan? text kind = none ↔ ∀ span, ¬ AssignedAt text kind span := by
  rw [assignedSpan?_eq_none_iff solid]
  constructor
  · rintro h span ⟨front, line, back, value, lines, assigns, _⟩
    exact h line (lines ▸ List.mem_append_right front List.mem_cons_self) value assigns
  · intro h line mem value assigns
    obtain ⟨front, back, lines⟩ := List.append_of_mem mem
    exact h _ ⟨front, line, back, value, lines, assigns, rfl⟩

/-- What a line assigns ends no later than the line. -/
lemma spanBehind_le {line value : List Char} (front : List (List Char)) (assigns : Assigns kind line value) :
    (spanBehind front line value).offset + (spanBehind front line value).length ≤
      byteLength front.flatten + byteLength line := by
  obtain ⟨indent, gap, gap', rfl, _⟩ := assigns
  obtain ⟨after, hvalue, _⟩ := exists_append_withoutComment value
  have length := congrArg byteLength hvalue
  simp only [spanBehind, Text.byteLength_append] at *
  omega

lemma assignedSpan?_eq_some (solid : IsSolid kind) (h : assignedSpan? text kind = some span) :
    AssignedAt text kind span ∧ ∀ other, AssignedAt text kind other → NoLater span other := by
  obtain ⟨front, line, back, value, lines, first, assigns, rfl⟩ := (assignedSpan?_eq_some_iff solid).mp h
  refine ⟨⟨front, line, back, value, lines, assigns, rfl⟩, ?_⟩
  rintro other ⟨front', line', back', value', lines', assigns', rfl⟩
  have same (hfront : front' = front) (hline : line' = line) : NoLater (spanBehind front line value)
      (spanBehind front' line' value') := by
    subst hfront hline
    rw [← assigned?_eq_some_iff solid] at assigns assigns'
    cases assigns.symm.trans assigns'
    exact ⟨le_rfl, le_rfl⟩
  rw [lines] at lines'
  obtain ⟨between, rfl, rest⟩ | ⟨between, rfl, rest⟩ := List.append_eq_append_iff.mp lines'
  · cases between with
    | nil => exact same (List.append_nil front) (List.cons.inj rest).1.symm
    -- A later line starts behind the end of this one.
    | cons head between =>
      cases rest
      have inside := spanBehind_le front assigns
      simp only [NoLater, spanBehind, List.flatten_append, List.flatten_cons, Text.byteLength_append] at *
      omega
  · cases between with
    | nil => exact same (List.append_nil front').symm (List.cons.inj rest).1
    | cons head between =>
      cases rest
      exact absurd assigns' (first line' (List.mem_append_right _ List.mem_cons_self) value')

/-- What the search for a name finds, kind of place by kind of place. -/
lemma textSpan?_eq (text file name kind : String) : (Context.ofText text file).textSpan? name kind =
    ((quotedSpan? '"' text.toList name.toList).or (quotedSpan? '\'' text.toList name.toList)).or
      (assignedSpan? text.toList kind.toList) := by
  rw [Context.textSpan?, quotedTextSpan?]
  simp only [Option.orElse_eq_orElse, Option.orElse_eq_or]
  rfl

lemma textSpan?_eq_none {text kind name : String} (file : String) (solid : IsSolid kind.toList) :
    (Context.ofText text file).textSpan? name kind = none ↔
      ∀ rank span, ¬ Sighted text.toList kind.toList name.toList rank span := by
  rw [textSpan?_eq, Option.or_eq_none_iff, Option.or_eq_none_iff, quotedSpan?_eq_none, quotedSpan?_eq_none,
    assignedSpan?_eq_none solid, Fin.forall_fin_succ, Fin.forall_fin_two]
  exact and_assoc

/-- The search for a name finds the first sighting of the first kind of which there are any. -/
lemma textSpan?_eq_some {text kind name file : String} (solid : IsSolid kind.toList)
    (h : (Context.ofText text file).textSpan? name kind = some span) :
    ∃ rank, Sighted text.toList kind.toList name.toList rank span ∧
      (∀ lower < rank, ∀ other, ¬ Sighted text.toList kind.toList name.toList lower other) ∧
      ∀ other, Sighted text.toList kind.toList name.toList rank other → NoLater span other := by
  rw [textSpan?_eq, Option.or_eq_some_iff, Option.or_eq_some_iff, Option.or_eq_none_iff] at h
  obtain (double | ⟨noDouble, single⟩) | ⟨⟨noDouble, noSingle⟩, line⟩ := h
  · obtain ⟨sighted, first⟩ := quotedSpan?_eq_some double
    exact ⟨0, sighted, nofun, first⟩
  · obtain ⟨sighted, first⟩ := quotedSpan?_eq_some single
    refine ⟨1, sighted, ?_, first⟩
    rw [Fin.forall_fin_succ, Fin.forall_fin_two]
    exact ⟨fun _ => quotedSpan?_eq_none.mp noDouble, fun lower => absurd lower (by decide),
      fun lower => absurd lower (by decide)⟩
  · obtain ⟨sighted, first⟩ := assignedSpan?_eq_some solid line
    refine ⟨2, sighted, ?_, first⟩
    rw [Fin.forall_fin_succ, Fin.forall_fin_two]
    exact ⟨fun _ => quotedSpan?_eq_none.mp noDouble, fun _ => quotedSpan?_eq_none.mp noSingle,
      fun lower => absurd lower (by decide)⟩

end Sightings

/-- The value is the text. -/
def isText (text : String) : Value → Bool
  | .string other => other == text
  | _ => false

/-- The items of an array. -/
def itemsOf : Value → List (Located Value)
  | .array _ items => items
  | _ => []

/-- The value that gives a name of some kind in a document. A directive that is given twice is judged where it is given
first. -/
def named? (document : Table Value) : String → String → Option (Located Value)
  | "using", name => (said? document "csharp" "usings").bind fun usings =>
      (itemsOf usings.item).find? fun item => isText name item.item
  | kind, _ => said? document "csharp" kind

section Names

variable {text file file' name context : String} {span : Span} {fault : NameFault} {document : Table Value}
  {draft : Draft} {value : Located Value}

lemma isText_eq_true {value : Value} (h : isText name value = true) : value = .string name := by
  cases value with
  | string other => rw [beq_iff_eq.mp h]
  | integer | real | boolean | date | array | table => cases h

lemma exists_using (said : draft.IsSaid document) (mem : name ∈ draft.names.usings) (ne : name ∉ defaultUsings) :
    ∃ value, named? document "using" name = some value ∧ value.item = .string name := by
  obtain ⟨usings, given, decoded⟩ := said.usings.exists_given fun byDefault => by
    rw [byDefault] at mem
    exact ne mem
  obtain ⟨place, item⟩ := usings
  cases item with
  | array ofTables list =>
    obtain ⟨item, hitem, decoded⟩ := exists_of_mapM decoded name mem
    have isName : isText name item.item = true := by
      rw [text_eq_ok decoded]
      exact beq_self_eq_true name
    have found : named? document "using" name = list.find? fun item => isText name item.item := by
      rw [named?, given]
      rfl
    cases first : list.find? fun item => isText name item.item with
    | none => exact absurd isName (List.find?_eq_none.mp first item hitem)
    | some value =>
      have isName := List.find?_some first
      exact ⟨value, found.trans first, isText_eq_true isName⟩
  | string | integer | real | boolean | date | table => cases decoded

lemma mem_usings (h : FirstUnmet draft (.usingName name)) : name ∈ draft.names.usings := by
  obtain ⟨before, after, demands, _⟩ := h
  have mem : Demand.usingName name ∈ draft.demands := by
    rw [demands]
    exact List.mem_append_right _ List.mem_cons_self
  simpa [Draft.demands] using mem

/-- A rejected name is given in the document, and looked for under its kind. -/
lemma exists_named {demand : Demand} (reading : Reading text file document draft) (unmet : FirstUnmet draft demand)
    (reports : demand.Reports draft (.name name context fault)) :
    ∃ kind value, context = kind ++ " in 'csharp'" ∧ named? document kind name = some value ∧
      value.item = .string name ∧ IsSolid kind.toList ∧
      demand.span? (.ofText text file) draft = (Context.ofText text file).textSpan? name kind := by
  have notMet : ¬ demand.Met draft := unmet.notMet
  cases demand with
  | arities | pathGiven | pathInside | pathApart => cases reports
  | namespaceName =>
    obtain ⟨_, _, ⟨⟩⟩ := reports
    obtain ⟨value, said, decoded⟩ := reading.said.namespaceName.exists_given (namespaceName_ne_default notMet)
    exact ⟨"namespace", value, rfl, said, text_eq_ok decoded, rfl, rfl⟩
  | usingName name' =>
    obtain ⟨_, _, ⟨⟩⟩ := reports
    obtain ⟨value, named, same⟩ := exists_using reading.said (mem_usings unmet) (using_not_default notMet)
    exact ⟨"using", value, rfl, named, same, rfl, rfl⟩
  | key =>
    obtain ⟨_, _, ⟨⟩⟩ := reports
    obtain ⟨value, said, decoded⟩ := reading.said.key.exists_given (key_ne_default notMet)
    exact ⟨"key", value, rfl, said, text_eq_ok decoded, rfl, rfl⟩

/-- When a name is rejected at a place, this lies on its value in the document exactly if there is a sighting on the
value, none of a kind that is looked for earlier, and none of the same kind that starts before the value. -/
theorem name_span_within_iff
    (rejected : ofText text file = .error (.rejected file' (some span) (.name name context fault))) :
    ∃ document draft kind value, Reading text file document draft ∧ context = kind ++ " in 'csharp'" ∧
      named? document kind name = some value ∧ value.item = .string name ∧
      (Within span value.span ↔ ∃ rank sighting, Sighted text.toList kind.toList name.toList rank sighting ∧
        Within sighting value.span ∧
        (∀ lower < rank, ∀ other, ¬ Sighted text.toList kind.toList name.toList lower other) ∧
        ∀ other, Sighted text.toList kind.toList name.toList rank other → value.span.offset ≤ other.offset) := by
  have judged : (Rejection.name name context fault).IsJudged := trivial
  obtain ⟨document, draft, demand, reading, unmet, reports, place⟩ := exists_reading judged rejected
  obtain ⟨kind, value, described, named, same, solid, looked⟩ := exists_named reading unmet reports
  rw [looked] at place
  obtain ⟨rank, sighted, none, first⟩ := textSpan?_eq_some solid place.symm
  refine ⟨document, draft, kind, value, reading, described, named, same, ?_, ?_⟩
  · intro within
    exact ⟨rank, span, sighted, within, none, fun other hother => within.1.trans (first other hother).1⟩
  · rintro ⟨rank', sighting, sighted', within, none', later⟩
    obtain rfl : rank = rank' := by
      obtain lower | same | lower := lt_trichotomy rank rank'
      · exact absurd sighted (none' rank lower span)
      · exact same
      · exact absurd sighted' (none rank' lower sighting)
    exact ⟨later span sighted, (first sighting sighted').2.trans within.2⟩

/-- The base name of the keys is wrong, and stands between double quotes nowhere but in its value. -/
theorem name_span_within_iff_key : ∃ document draft value,
    Reading "[csharp]\nkey = \"Key\"\n" "mapgen.toml" document draft ∧ named? document "key" "Key" = some value ∧
      value.span = ⟨15, 5⟩ ∧ Within ⟨16, 3⟩ value.span ∧
      ∃ rank sighting, Sighted "[csharp]\nkey = \"Key\"\n".toList "key".toList "Key".toList rank sighting ∧
        Within sighting value.span := by
  have rejected : ofText "[csharp]\nkey = \"Key\"\n" "mapgen.toml" =
      .error (.rejected "mapgen.toml" (some ⟨16, 3⟩) (.name "Key" "key in 'csharp'" .upperCase)) := by
    decide +kernel
  have place : ((Toml.parse? "[csharp]\nkey = \"Key\"\n".toList).bind fun document =>
      (named? document "key" "Key").map (·.span)) = some ⟨15, 5⟩ := by
    decide +kernel
  obtain ⟨document, draft, kind, value, reading, described, named, _, same⟩ := name_span_within_iff rejected
  obtain rfl : "key" = kind := (String.append_left_inj " in 'csharp'").mp described
  rw [reading.parsed] at place
  obtain ⟨value', named', span⟩ := Option.map_eq_some_iff.mp place
  cases named.symm.trans named'
  have within : Within ⟨16, 3⟩ value.span := by
    rw [span]
    exact ⟨by decide, by decide⟩
  obtain ⟨rank, sighting, sighted, inside, _⟩ := same.mp within
  exact ⟨document, draft, value, reading, named, span, within, rank, sighting, sighted, inside⟩

/-- The key is wrong, but the namespace that reads like it is shown. -/
theorem name_span_namespace :
    ofText "[csharp]\nnamespace = \"Key\"\nkey = \"Key\"\n" "mapgen.toml" =
      .error (.rejected "mapgen.toml" (some ⟨22, 3⟩) (.name "Key" "key in 'csharp'" .upperCase)) ∧
    ((Toml.parse? "[csharp]\nnamespace = \"Key\"\nkey = \"Key\"\n".toList).bind fun document =>
      (named? document "key" "Key").map (·.span)) = some ⟨33, 5⟩ ∧ ¬ Within ⟨22, 3⟩ ⟨33, 5⟩ := by
  refine ⟨by decide +kernel, by decide +kernel, ?_⟩
  rintro ⟨start, _⟩
  exact absurd start (by decide)

end Names

end Polyadic.Manifest
