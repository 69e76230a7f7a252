import Polyadic.Proofs.Text.Lines
import Polyadic.Proofs.Toml.Reading
import Polyadic.Proofs.Toml.Tables
import Polyadic.Toml.Document

/-!
# What statements say about their text

What is read from a text is compared with the characters that were taken for it. The keys and values of a statement
stand in the text, and a key of one part stands at the start of a line, with an equals sign and its value behind it
(`Reader.document_inText`).
-/

namespace Polyadic.Toml

open Text (Span Located byteLength lastLine)

/-! ## Between statements -/

namespace Reader

section Blanks

lemma reads_blanks : Reads blanks fun _ taken _ _ => ∀ c ∈ taken, isSpacing c = true := by
  unfold blanks
  refine ((Reads.takeWhile isSpacing).bind fun _ => Reads.pure ()).mono ?_
  rintro before _ _ left ⟨taken, _, text, rfl, ⟨rfl, all, _⟩, rfl, _⟩
  rw [List.append_nil]
  exact all

lemma reads_lineBreak : Reads lineBreak fun _ taken answer left =>
    answer = true ∧ (∃ front, taken = front ++ ['\n']) ∨ answer = false ∧ taken = [] ∧ ∀ c ∈ left.head?, c ≠ '\n' := by
  unfold lineBreak
  refine ((Reads.accept ['\n']).bind (Q := fun found _ taken answer _ =>
    found = true ∧ taken = [] ∧ answer = true ∨
      found = false ∧ (answer = true ∧ taken = ['\r', '\n'] ∨ answer = false ∧ taken = [])) fun found => ?_).mono ?_
  · refine .ite (fun yes => ?_) fun no => ?_
    · exact (Reads.pure true).mono fun _ _ _ _ post => .inl ⟨yes, post⟩
    · refine (Reads.accept ['\r', '\n']).mono fun _ _ _ _ post => .inr ⟨Bool.eq_false_of_not_eq_true no, ?_⟩
      obtain taken | ⟨none, nothing, _⟩ := post
      · exact .inl taken
      · exact .inr ⟨none, nothing⟩
  · rintro before _ answer left ⟨first, second, found, rfl, post, later⟩
    obtain ⟨rfl, rfl⟩ | ⟨rfl, rfl, other⟩ := post
    · obtain ⟨_, rfl, rfl⟩ | ⟨impossible, _⟩ := later
      · exact .inl ⟨rfl, [], rfl⟩
      · cases impossible
    · obtain ⟨impossible, _⟩ | ⟨_, ⟨rfl, rfl⟩ | ⟨rfl, rfl⟩⟩ := later
      · cases impossible
      · exact .inl ⟨rfl, ['\r'], rfl⟩
      · refine .inr ⟨rfl, rfl, fun c hc feed => other ?_⟩
        obtain ⟨rest, rfl⟩ := List.head?_eq_some_iff.mp (Option.mem_def.mp hc)
        rw [feed]
        exact List.prefix_append ['\n'] rest

/-- The text goes on at the end of a line. -/
def AtLineEnd (rest : List Char) : Prop :=
  ∀ c ∈ rest.head?, c = '\n' ∨ c = '\r'

lemma reads_comment : Reads comment fun _ taken answer left =>
    answer = true ∧ (∃ text, taken = '#' :: text) ∧ AtLineEnd left ∨ answer = false ∧ taken = [] := by
  unfold comment
  refine ((Reads.accept ['#']).bind (Q := fun found _ taken answer left =>
    found = true ∧ answer = true ∧ AtLineEnd left ∨
      found = false ∧ answer = false ∧ taken = []) fun found => ?_).mono ?_
  · refine .ite (fun yes => ?_) fun no => ?_
    · refine ((Reads.takeWhile fun c => c != '\n' && c != '\r').bind fun text =>
        (Reads.of_guard (text.all isPlain = true)).bind fun _ => Reads.pure true).mono ?_
      rintro before _ answer left ⟨taken, _, text, rfl, ⟨rfl, _, stop⟩, _, _, _, rfl, ⟨rfl, _⟩, rfl, rfl⟩
      refine .inl ⟨yes, rfl, fun c hc => ?_⟩
      have last := stop c hc
      by_contra other
      rw [not_or] at other
      simp [other] at last
    · exact (Reads.pure false).mono fun _ _ _ _ post => .inr ⟨Bool.eq_false_of_not_eq_true no, post.2, post.1⟩
  · rintro before _ answer left ⟨first, second, found, rfl, post, later⟩
    obtain ⟨rfl, rfl⟩ | ⟨rfl, rfl, _⟩ := post
    · obtain ⟨_, rfl, stop⟩ | ⟨impossible, _⟩ := later
      · exact .inl ⟨rfl, ⟨second, rfl⟩, stop⟩
      · cases impossible
    · obtain ⟨impossible, _⟩ | ⟨_, rfl, rfl⟩ := later
      · cases impossible
      · exact .inr ⟨rfl, rfl⟩

/-- Nothing but blanks stands on the line so far. -/
def AtLineStart (before : List Char) : Prop :=
  ∀ c ∈ lastLine before, isSpacing c = true

lemma atLineStart_of_lineFeed (front : List Char) : AtLineStart (front ++ ['\n']) := by
  rw [AtLineStart, Text.lastLine_append_of_mem (List.mem_singleton_self '\n')]
  exact nofun

lemma AtLineStart.append {before blanks : List Char} (h : AtLineStart before)
    (blank : ∀ c ∈ blanks, isSpacing c = true) : AtLineStart (before ++ blanks) := by
  have plain : '\n' ∉ blanks := fun feed => absurd (blank _ feed) (by decide)
  rw [AtLineStart, Text.lastLine_append_of_not_mem plain]
  exact List.forall_mem_append.mpr ⟨h, blank⟩

/-- Nothing but blanks stands on the line so far, or nothing more will stand on it. -/
def Between (before rest : List Char) : Prop :=
  AtLineStart before ∨ AtLineEnd rest

lemma Between.blanks {before taken left : List Char} (h : Between before (taken ++ left))
    (blank : ∀ c ∈ taken, isSpacing c = true) : Between (before ++ taken) left := by
  obtain start | stop := h
  · exact .inl (start.append blank)
  · cases taken with
    | nil => exact .inr stop
    | cons c taken =>
      have spacing := blank c List.mem_cons_self
      obtain rfl | rfl := stop c rfl
      · exact absurd spacing (by decide)
      · exact absurd spacing (by decide)

/-- A line break, or a comment up to one. -/
lemma reads_lineBreakOrComment : Reads (do
    if ← lineBreak then return some ()
    if ← comment then return some ()
    return none) fun before taken _ left => taken = [] ∨ Between (before ++ taken) left := by
  refine (reads_lineBreak.bind (Q := fun found before taken item left =>
    taken = [] ∨ Between (before ++ taken) left) fun found => ?_).mono ?_
  · refine .ite (fun _ => (Reads.pure _).mono fun _ _ _ _ post => .inl post.1) fun _ => ?_
    refine (reads_comment.bind fun found =>
      .ite (fun _ => (Reads.pure _).mono fun _ _ _ _ post => post.1)
        fun _ => (Reads.pure _).mono fun _ _ _ _ post => post.1).mono ?_
    rintro before _ item left ⟨first, _, found, rfl, post, rfl⟩
    obtain ⟨_, _, stop⟩ | ⟨_, rfl⟩ := post
    · exact .inr (.inr stop)
    · exact .inl rfl
  · rintro before _ item left ⟨first, second, found, rfl, post, later⟩
    obtain ⟨_, front, rfl⟩ | ⟨_, rfl, _⟩ := post
    · obtain rfl | between := later
      · rw [List.append_nil, ← List.append_assoc]
        exact .inr (.inl (atLineStart_of_lineFeed _))
      · exact .inr (by rwa [List.append_assoc] at between)
    · rw [List.append_nil] at later
      exact later

lemma reads_trivia : Reads trivia fun before taken _ left =>
    Between before (taken ++ left) → Between (before ++ taken) left := by
  unfold trivia
  refine ((Reads.collect (I := fun _ => Between)
    (D := fun _ before taken left => Between (before ++ taken) left) ?_).bind fun _ => Reads.pure ()).mono ?_
  · refine ((Reads.takeWhile isSpacing).bind fun space =>
      .ite (fun _ => (Reads.pure _).mono fun _ _ _ _ post => .inl post.1) fun _ => reads_lineBreakOrComment).mono ?_
    rintro before _ item left ⟨space, rest, _, rfl, ⟨_, blank, _⟩, later⟩ items between
    have between : Between (before ++ (space ++ rest)) left := by
      rw [← List.append_assoc]
      rw [List.append_assoc] at between
      obtain rfl | between' := later
      · rw [List.append_nil]
        exact between.blanks blank
      · exact between'
    cases item with
    | none => exact between
    | some _ => exact between
  · rintro before _ _ left ⟨taken, _, items, rfl, post, rfl, _⟩ between
    rw [List.append_nil] at *
    obtain ⟨earlier, last, rfl, done⟩ := post between
    rwa [List.append_assoc] at done

lemma reads_endOfLine : Reads endOfLine fun before taken _ left => Between (before ++ taken) left := by
  unfold endOfLine
  refine (reads_blanks.bind fun _ => reads_comment.bind fun _ => Reads.atEnd.bind (Q := fun ended _ taken _ _ =>
    ended = true ∧ taken = [] ∨ ∃ front, taken = front ++ ['\n']) fun ended => ?_).mono ?_
  · refine .ite (fun yes => (Reads.pure ()).mono fun _ _ _ _ post => .inl ⟨yes, post.1⟩) fun _ => ?_
    refine (reads_lineBreak.bind fun found => Reads.of_guard (found = true)).mono ?_
    rintro before _ _ left ⟨taken, _, found, rfl, ⟨_, front, rfl⟩ | ⟨no, _⟩, rfl, yes⟩
    · exact .inr ⟨front, List.append_nil _⟩
    · rw [yes] at no
      cases no
  · rintro before _ _ left ⟨first, _, _, rfl, _, second, _, _, rfl, _, third, last, ended, rfl, ⟨rfl, atEnd⟩, post⟩
    obtain ⟨rfl, rfl⟩ | ⟨front, rfl⟩ := post
    · rw [List.nil_append] at atEnd
      rw [atEnd.mp rfl]
      exact .inr nofun
    · simp only [← List.append_assoc]
      exact .inl (atLineStart_of_lineFeed _)

end Blanks

end Reader

/-! ## Keys -/

/-- A stretch of the text in which something is written. -/
def InText (text : List Char) (span : Span) : Prop :=
  ∃ before part after, text = before ++ part ++ after ∧ part ≠ [] ∧ span = ⟨byteLength before, byteLength part⟩

namespace Reader

/-- What consumes something answers what stands in the text. -/
lemma Reads.located_inText {α : Type} {read : Reader α} {Post : List Char → List Char → α → List Char → Prop}
    (h : Reads read fun before taken answer left => taken ≠ [] ∧ Post before taken answer left) :
    Reads (Reader.located read) fun before taken answer left =>
      InText (before ++ taken ++ left) answer.span ∧ Post before taken answer.item left := by
  refine h.located.mono fun before taken answer left post => ?_
  obtain ⟨span, some, post⟩ := post
  exact ⟨⟨before, taken, left, rfl, some, span⟩, post⟩

section Keys

lemma reads_quotedBy (quotation : Quotation) :
    Reads (quotedBy quotation) fun _ taken _ _ => ∃ rest, taken = quotation.quote :: rest := by
  have marked : ∃ rest, quotation.marks = quotation.quote :: rest := by
    unfold Quotation.marks
    split
    · exact ⟨_, rfl⟩
    · exact ⟨_, rfl⟩
  obtain ⟨marks, marked⟩ := marked
  unfold quotedBy
  refine ((Reads.expect quotation.marks).bind fun _ => Reads.remaining.bind (Q := fun _ _ _ _ _ => True)
    fun rest => ?_).mono ?_
  · split
    · exact Reads.failure.mono fun _ _ _ _ _ => trivial
    · exact ((Reads.skip _).bind fun _ => (Reads.expect quotation.marks).bind fun _ => (Reads.lift _).bind fun text =>
        Reads.pure (String.ofList text)).mono fun _ _ _ _ _ => trivial
  · rintro before _ text left ⟨_, rest, _, rfl, rfl, _⟩
    exact ⟨marks ++ rest, by rw [marked, List.cons_append]⟩

lemma reads_quotedOnce (quote : Char) : Reads (quotedOnce quote) fun _ taken _ _ => ∃ rest, taken = quote :: rest :=
  reads_quotedBy ⟨quote, false⟩

lemma reads_quoted (quote : Char) : Reads (quoted quote) fun _ taken _ _ => ∃ rest, taken = quote :: rest := by
  unfold quoted
  refine (Reads.remaining.bind fun rest =>
    reads_quotedBy ⟨quote, (Quotation.mk quote true).marks.isPrefixOf rest⟩).mono ?_
  rintro before _ text left ⟨_, taken, _, rfl, ⟨rfl, _⟩, start⟩
  exact start

/-- A key does not start with the end of a line. -/
lemma reads_keyPart : Reads keyPart fun _ taken _ _ => ∃ c rest, taken = c :: rest ∧ c ≠ '\n' ∧ c ≠ '\r' := by
  unfold keyPart
  refine (Reads.remaining.bind (Q := fun _ _ taken _ _ => ∃ c rest, taken = c :: rest ∧ c ≠ '\n' ∧ c ≠ '\r')
    fun rest => ?_).mono ?_
  · split
    · exact (reads_quotedOnce '"').mono fun _ _ _ _ ⟨rest, start⟩ => ⟨_, rest, start, by decide⟩
    · exact (reads_quotedOnce '\'').mono fun _ _ _ _ ⟨rest, start⟩ => ⟨_, rest, start, by decide⟩
    · refine ((Reads.takeWhile isBareKeyChar).bind fun text => (Reads.of_guard ((!text.isEmpty) = true)).bind fun _ =>
        Reads.pure (String.ofList text)).mono ?_
      rintro before _ _ left ⟨_, _, text, rfl, ⟨rfl, bare, _⟩, _, _, _, rfl, ⟨rfl, some⟩, rfl, _⟩
      cases text with
      | nil => cases some
      | cons c rest =>
        have char := bare c List.mem_cons_self
        refine ⟨c, rest, List.append_nil _, ?_, ?_⟩
        · rintro rfl
          exact absurd char (by decide)
        · rintro rfl
          exact absurd char (by decide)
  · rintro before _ _ left ⟨_, taken, rest, rfl, ⟨rfl, rfl⟩, start⟩
    exact start

/-- A part of a key stands where it was consumed. -/
lemma reads_located_keyPart : Reads (located keyPart) fun before taken key left =>
    InText (before ++ taken ++ left) key.span ∧ key.span = ⟨byteLength before, byteLength taken⟩ ∧
      ∃ c rest, taken = c :: rest ∧ c ≠ '\n' ∧ c ≠ '\r' := by
  refine (Reads.located_inText (reads_keyPart.mono fun _ _ _ _ ⟨c, rest, start⟩ =>
    ⟨start.1 ▸ List.cons_ne_nil c rest, trivial⟩) |>.and reads_keyPart.located).mono ?_
  rintro before taken key left ⟨⟨placed, _⟩, span, start⟩
  exact ⟨placed, span, start⟩

/-- A further part of a key, announced by a dot. -/
lemma reads_dottedPart : Reads (do
    if ← accept ['.'] then
      blanks
      let part ← located keyPart
      blanks
      return some part
    else return none) fun before taken item left =>
      (∀ key ∈ item, InText (before ++ taken ++ left) key.span) ∧ (item = none → taken = []) := by
  refine ((Reads.accept ['.']).bind (Q := fun dot before taken item left =>
    dot = true ∧ (∃ key, item = some key ∧ InText (before ++ taken ++ left) key.span) ∨
      dot = false ∧ taken = [] ∧ item = none) fun dot => ?_).mono ?_
  · refine .ite (fun yes => ?_) fun no => ?_
    · refine (reads_blanks.bind fun _ => reads_located_keyPart.bind fun part => reads_blanks.bind fun _ =>
        Reads.pure (some part)).mono ?_
      rintro before _ _ left ⟨_, _, _, rfl, _, _, _, key, rfl, ⟨placed, _⟩, _, _, _, rfl, _, rfl, rfl⟩
      simp only [List.append_assoc] at *
      exact .inl ⟨yes, key, rfl, placed⟩
    · exact (Reads.pure none).mono fun _ _ _ _ post => .inr ⟨Bool.eq_false_of_not_eq_true no, post⟩
  · rintro before _ item left ⟨_, _, _, rfl, post, later⟩
    obtain ⟨_, key, rfl, placed⟩ | ⟨rfl, rfl, rfl⟩ := later
    · rw [← List.append_assoc]
      exact ⟨fun _ same => Option.some.inj same ▸ placed, nofun⟩
    · obtain ⟨impossible, _⟩ | ⟨_, rfl, _⟩ := post
      · cases impossible
      · exact ⟨nofun, fun _ => rfl⟩

/-- A key stands in the text part by part, and a key of one part stands alone between blanks. -/
lemma reads_keyPath : Reads keyPath fun before taken path left =>
    (∀ key ∈ path.1 ++ [path.2], InText (before ++ taken ++ left) key.span) ∧ (path.1 = [] →
      ∃ indent written gap, taken = indent ++ written ++ gap ∧
        path.2.span = ⟨byteLength (before ++ indent), byteLength written⟩ ∧
        (∃ c rest, written = c :: rest ∧ c ≠ '\n' ∧ c ≠ '\r') ∧
        (∀ c ∈ indent, isSpacing c = true) ∧ ∀ c ∈ gap, isSpacing c = true) := by
  have parts := (Reads.collect_each (E := fun text key => InText text key.span)
    (reads_dottedPart.mono fun _ _ _ _ post => post.1)).and
      (Reads.collect_nil (reads_dottedPart.mono fun _ _ _ _ post => post.2))
  unfold keyPath
  refine (reads_blanks.bind fun _ => reads_located_keyPart.bind fun first => reads_blanks.bind fun _ =>
    parts.bind fun more => (Reads.of_guard ((first :: more).dropLast.length < maxDepth)).bind fun _ =>
      Reads.pure ((first :: more).dropLast, (first :: more).getLastD first)).mono ?_
  rintro before _ _ left ⟨indent, _, _, rfl, blank, written, _, first, rfl, ⟨placed, span, start⟩, gap, _, _, rfl,
    blank', _, _, more, rfl, ⟨later, nothing⟩, _, _, _, rfl, ⟨rfl, _⟩, rfl, rfl⟩
  have whole : (first :: more).dropLast ++ [(first :: more).getLastD first] = first :: more := by
    rw [List.getLastD_eq_getLast?, List.getLast?_eq_some_getLast (List.cons_ne_nil _ _), Option.getD_some,
      List.dropLast_append_getLast]
  dsimp only
  rw [whole]
  refine ⟨?_, fun single => ?_⟩
  · simp only [List.append_assoc, List.append_nil, List.nil_append] at *
    exact List.forall_mem_cons.mpr ⟨placed, later⟩
  · cases more with
    | nil =>
      rw [nothing rfl]
      exact ⟨indent, written, gap, by simp only [List.append_nil, List.append_assoc], span, start, blank, blank'⟩
    | cons part more => cases single

end Keys

end Reader

/-! ## Values -/

/-- Tables as they are written between braces. -/
def Shape.written (text : List Char) : Shape where
  Kind kind := kind = .inline ∨ kind = .dotted
  Entry _ _ _ := True
  Place := InText text

/-- A value whose tables all stand between braces, and in which all that stands in it stands in the text. -/
structure IsWritten (text : List Char) (value : Value) : Prop where
  sound : value.Sound (.written text)
  inline : ∀ table, value = .table table → table.kind = .inline

/-- A value that is written where it stands in the text. -/
structure WrittenAt (text : List Char) (value : Located Value) : Prop where
  place : InText text value.span
  written : IsWritten text value.item

/-- The parts of a key stand in the text. -/
def KeyInText (text : List Char) (path : List Key) (key : Key) : Prop :=
  ∀ part ∈ path ++ [key], InText text part.span

lemma dotted_fits_written (text : List Char) : Descent.dotted.Fits (.written text) :=
  ⟨.inr rfl, fun _ _ _ _ _ => trivial, fun _ _ _ _ _ _ _ _ => trivial, fun _ _ _ _ _ _ => trivial⟩

section Written

variable {text : List Char} {value : Value}

lemma isWritten_string (string : String) : IsWritten text (.string string) where
  sound _ holds := by cases holds; trivial
  inline := nofun

lemma isWritten_scalar {word : List Char} (h : scalar? word = some value) : IsWritten text value := by
  unfold scalar? at h
  split at h
  · cases h
    exact ⟨fun _ holds => by cases holds; trivial, nofun⟩
  · split at h
    · cases h
      exact ⟨fun _ holds => by cases holds; trivial, nofun⟩
    · split at h
      · cases h
        exact ⟨fun _ holds => by cases holds; trivial, nofun⟩
      · split at h
        · cases h
          exact ⟨fun _ holds => by cases holds; trivial, nofun⟩
        · obtain ⟨_, _, rfl⟩ := Option.map_eq_some_iff.mp h
          exact ⟨fun _ holds => by cases holds; trivial, nofun⟩

lemma isWritten_array {items : List (Located Value)} (h : ∀ item ∈ items, WrittenAt text item) :
    IsWritten text (.array false items) where
  sound := Value.sound_array_iff.mpr fun item mem => ⟨⟨(h item mem).place, (h item mem).written.sound⟩, nofun⟩
  inline := nofun

lemma isWritten_inlineTable {items : List ((List Key × Key) × Located Value)}
    (h : ∀ item ∈ items, KeyInText text item.1.1 item.1.2 ∧ WrittenAt text item.2)
    (made : Reader.inlineTable? items = some value) : IsWritten text value := by
  obtain ⟨table, ran, same⟩ := Option.bind_eq_some_iff.mp made
  cases same
  have kept := foldlM_induction (P := fun table => (Value.table table).Sound (.written text) ∧ table.kind = .inline) ran
    ⟨.empty (.inl rfl), rfl⟩ fun table item table' mem state assigned => by
      obtain ⟨keys, place, written⟩ := h item mem
      obtain ⟨sound, kind⟩ := Table.assign_keeps (dotted_fits_written text)
        (fun key mem => keys key (List.mem_append_left _ mem)) (fun _ _ => trivial) ⟨place, written.sound⟩ state.1
        assigned
      exact ⟨sound, kind.trans state.2⟩
  exact ⟨kept.1, fun _ same => by cases same; exact kept.2⟩

lemma isPrefix_scalarText (rest : List Char) : scalarText rest <+: rest := by
  induction rest with
  | nil => exact List.prefix_rfl
  | cons c rest ih =>
    rw [scalarText]
    split
    · exact List.prefix_cons_inj c |>.mpr ih
    · exact List.nil_prefix

end Written

namespace Reader

section Values

lemma reads_scalar : Reads scalar fun before taken value left =>
    taken ≠ [] ∧ IsWritten (before ++ taken ++ left) value := by
  unfold scalar
  refine (Reads.remaining.bind fun rest => (Reads.skip_length (scalarText rest)).bind
    (Q := fun _ _ taken value _ => taken = [] ∧ scalar? (scalarText rest) = some value) fun _ => ?_).mono ?_
  · split
    · rename_i value found
      refine (Reads.pure value).mono ?_
      rintro _ _ _ _ ⟨rfl, rfl⟩
      exact ⟨rfl, found⟩
    · exact Reads.failure.mono fun _ _ _ _ => False.elim
  · rintro before _ value left ⟨_, _, rest, rfl, ⟨rfl, rfl⟩, taken, _, _, rfl, skipped, rfl, found⟩
    refine ⟨?_, isWritten_scalar found⟩
    rw [List.append_nil, List.nil_append] at *
    rintro rfl
    rw [← skipped (isPrefix_scalarText _)] at found
    have nothing : scalar? [] = none := rfl
    rw [nothing] at found
    cases found

lemma reads_leaf : Reads leaf fun before taken value left =>
    taken ≠ [] ∧ IsWritten (before ++ taken ++ left) value := by
  have string (quote : Char) : Reads (do return Value.string (← quoted quote)) fun before taken value left =>
      taken ≠ [] ∧ IsWritten (before ++ taken ++ left) value := by
    refine ((reads_quoted quote).bind fun text => Reads.pure (Value.string text)).mono ?_
    rintro before _ _ left ⟨_, _, text, rfl, ⟨rest, rfl⟩, _, rfl⟩
    exact ⟨nofun, isWritten_string text⟩
  unfold leaf
  refine (Reads.remaining.bind (Q := fun _ before taken value left =>
    taken ≠ [] ∧ IsWritten (before ++ taken ++ left) value) fun rest => ?_).mono ?_
  · split
    · exact string '"'
    · exact string '\''
    · exact reads_scalar
  · rintro before _ value left ⟨_, _, _, rfl, ⟨rfl, _⟩, post⟩
    rwa [List.append_nil] at post

variable {α : Type} {item : Reader α} {E : List Char → α → Prop}

lemma reads_itemsUntil (close : Char)
    (h : Reads item fun before taken answer left => E (before ++ taken ++ left) answer) :
    Reads (itemsUntil close item) fun before taken items left =>
      ∀ answer ∈ items, E (before ++ taken ++ left) answer := by
  unfold itemsUntil
  refine .collect_each ((reads_trivia.bind fun _ => (Reads.accept [close]).bind (Q := fun _ before taken answer? left =>
    ∀ answer ∈ answer?, E (before ++ taken ++ left) answer) fun closed => ?_).mono ?_)
  · refine .ite (fun _ => (Reads.pure none).mono ?_) fun _ => ?_
    · rintro _ _ _ _ ⟨_, rfl⟩
      exact nofun
    · refine (h.bind fun found => reads_trivia.bind fun _ => (Reads.accept [',']).bind (Q := fun _ _ _ answer? _ =>
        answer? = some found) fun comma => ?_).mono ?_
      · refine .ite (fun _ => (Reads.pure _).mono fun _ _ _ _ post => post.2) fun _ => ?_
        refine (Reads.remaining.bind fun rest => (Reads.of_guard ((rest.head? == some close) = true)).bind fun _ =>
          Reads.pure (some found)).mono ?_
        rintro before _ _ left ⟨_, _, _, rfl, _, _, _, _, rfl, _, _, rfl⟩
        rfl
      · rintro before _ _ left ⟨_, _, found, rfl, good, _, _, _, rfl, _, _, _, _, rfl, _, rfl⟩ _ ⟨⟩
        simp only [List.append_assoc] at *
        exact good
  · rintro before _ answer? left ⟨_, _, _, rfl, _, _, _, _, rfl, _, good⟩
    simp only [List.append_assoc] at *
    exact good

/-- The key and the value stand in the text, those of one part on either side of an equals sign. -/
lemma reads_assignment {gap : Reader Unit} {G : List Char → Prop} {value : Reader Value}
    (gaps : Reads gap fun _ taken _ _ => G taken)
    (values : Reads value fun before taken value left => taken ≠ [] ∧ IsWritten (before ++ taken ++ left) value) :
    Reads (assignment gap value) fun before taken answer left =>
      KeyInText (before ++ taken ++ left) answer.1.1 answer.1.2 ∧ WrittenAt (before ++ taken ++ left) answer.2 ∧
      (answer.1.1 = [] → ∃ indent name gap gap' gap'' written,
        taken = indent ++ name ++ gap ++ gap' ++ '=' :: gap'' ++ written ∧
        answer.1.2.span = ⟨byteLength (before ++ indent), byteLength name⟩ ∧
        answer.2.span =
          ⟨byteLength (before ++ indent ++ name ++ gap ++ gap' ++ '=' :: gap''), byteLength written⟩ ∧
        (∃ c rest, name = c :: rest ∧ c ≠ '\n' ∧ c ≠ '\r') ∧ (∀ c ∈ indent, isSpacing c = true) ∧
        (∀ c ∈ gap, isSpacing c = true) ∧ G gap' ∧ G gap'') := by
  unfold assignment
  refine (reads_keyPath.bind fun key => gaps.bind fun _ => (Reads.expect ['=']).bind fun _ => gaps.bind fun _ =>
    (values.located.and (values.mono fun _ _ _ _ post => ⟨post.1, post⟩).located_inText).bind fun value =>
      Reads.pure (key, value)).mono ?_
  rintro before _ answer left ⟨_, _, key, rfl, ⟨keys, single⟩, gap', _, _, rfl, hgap', _, _, _, rfl, rfl, gap'', _, _,
    rfl, hgap'', written, _, value, rfl, ⟨⟨span, _⟩, place, _, isWritten⟩, rfl, rfl⟩
  refine ⟨?_, ⟨?_, ?_⟩, fun alone => ?_⟩
  · rw [KeyInText]
    simp only [List.append_assoc, List.append_nil] at *
    exact keys
  · simp only [List.append_assoc, List.append_nil] at *
    exact place
  · simp only [List.append_assoc, List.append_nil] at *
    exact isWritten
  · obtain ⟨indent, name, gap, rfl, span', start, blank, blank'⟩ := single alone
    refine ⟨indent, name, gap, gap', gap'', written, ?_, span', ?_, start, blank, blank', hgap', hgap''⟩
    · simp only [List.append_assoc, List.cons_append, List.nil_append, List.append_nil]
    · rw [span]
      simp only [List.append_assoc, List.cons_append, List.nil_append]

lemma reads_value (depth : Nat) : Reads (value depth) fun before taken value left =>
    taken ≠ [] ∧ IsWritten (before ++ taken ++ left) value := by
  induction depth with
  | zero => exact reads_leaf
  | succ depth ih =>
    unfold value
    refine (Reads.remaining.bind (Q := fun rest before taken value left => rest = taken ++ left →
      taken ≠ [] ∧ IsWritten (before ++ taken ++ left) value) fun rest => ?_).mono ?_
    · split
      · rename_i tail
        have items := reads_itemsUntil (E := WrittenAt) ']'
          ((ih.mono fun _ _ _ _ post => ⟨post.1, post⟩).located_inText.mono fun _ _ _ _ post => ⟨post.1, post.2.2⟩)
        refine ((Reads.skip_length ['[']).bind fun _ => items.bind fun items =>
          Reads.pure (Value.array false items)).mono ?_
        rintro before _ _ left ⟨first, _, _, rfl, bracket, _, _, items, rfl, written, rfl, rfl⟩ next
        obtain rfl := bracket ⟨tail, by rw [List.singleton_append, next, List.append_assoc]⟩
        simp only [List.append_assoc, List.append_nil, List.nil_append] at *
        exact ⟨List.cons_ne_nil _ _, isWritten_array written⟩
      · rename_i tail
        have items := reads_itemsUntil
          (E := fun text item => KeyInText text item.1.1 item.1.2 ∧ WrittenAt text item.2) '\x7d'
          ((reads_assignment (G := fun _ => True) (reads_trivia.mono fun _ _ _ _ _ => trivial) ih).mono
            fun _ _ _ _ post => ⟨post.1, post.2.1⟩)
        refine ((Reads.skip_length ['\x7b']).bind fun _ => items.bind fun items =>
          Reads.lift (inlineTable? items)).mono ?_
        rintro before _ value left ⟨first, _, _, rfl, brace, _, _, items, rfl, written, rfl, made⟩ next
        obtain rfl := brace ⟨tail, by rw [List.singleton_append, next, List.append_assoc]⟩
        simp only [List.append_assoc, List.append_nil, List.nil_append] at *
        exact ⟨List.cons_ne_nil _ _, isWritten_inlineTable written made⟩
      · exact reads_leaf.mono fun _ _ _ _ post _ => post
    · rintro before _ value left ⟨_, taken, _, rfl, ⟨rfl, rfl⟩, post⟩
      rw [List.append_nil] at post
      exact post rfl

end Values

end Reader

/-! ## Statements -/

/-- The key and the value stand in the text with an equals sign between them, and nothing but blanks before the key
on its line. -/
def Stands (text : List Char) (key : Key) (value : Located Value) : Prop :=
  ∃ before name gap gap' written after, text = before ++ name ++ gap ++ '=' :: gap' ++ written ++ after ∧
    key.span = ⟨byteLength before, byteLength name⟩ ∧
    value.span = ⟨byteLength (before ++ name ++ gap ++ '=' :: gap'), byteLength written⟩ ∧
    Reader.AtLineStart before ∧ (∀ c ∈ gap, isSpacing c = true) ∧ ∀ c ∈ gap', isSpacing c = true

/-- The keys and values of a statement stand in the text. -/
def Statement.InText (text : List Char) : Statement → Prop
  | .assign path key value => KeyInText text path key ∧ WrittenAt text value
  | .table path key span | .element path key span => KeyInText text path key ∧ Toml.InText text span

/-- A key of one part stands at the start of a line, with its value behind it. -/
def Statement.Stands (text : List Char) : Statement → Prop
  | .assign [] key value => Toml.Stands text key value
  | _ => True

namespace Reader

section Documents

lemma reads_header (brackets : Nat) (some : brackets ≠ 0) : Reads (header brackets) fun before taken key left =>
    taken ≠ [] ∧ KeyInText (before ++ taken ++ left) key.1 key.2 := by
  unfold header
  refine ((Reads.expect (List.replicate brackets '[')).bind fun _ => reads_keyPath.bind fun key =>
    (Reads.expect (List.replicate brackets ']')).bind fun _ => Reads.pure key).mono ?_
  rintro before _ _ left ⟨_, _, _, rfl, rfl, _, _, key, rfl, ⟨keys, _⟩, _, _, _, rfl, _, rfl, rfl⟩
  simp only [KeyInText, List.append_assoc, List.append_nil] at *
  refine ⟨fun empty => some ?_, keys⟩
  exact List.length_replicate.symm.trans (congrArg List.length (List.append_eq_nil_iff.mp empty).1)

lemma reads_statement : Reads statement fun before taken statement left =>
    statement.InText (before ++ taken ++ left) ∧
      (Between before (taken ++ left) → statement.Stands (before ++ taken ++ left)) := by
  unfold statement
  refine (Reads.remaining.bind (Q := fun _ before taken statement left =>
    statement.InText (before ++ taken ++ left) ∧
      (Between before (taken ++ left) → statement.Stands (before ++ taken ++ left))) fun rest => ?_).mono ?_
  · split
    · refine ((reads_header 2 (by decide)).located_inText.bind fun key =>
        Reads.pure (Statement.element key.item.1 key.item.2 key.span)).mono ?_
      rintro before _ _ left ⟨_, _, _, rfl, ⟨place, keys⟩, rfl, rfl⟩
      rw [List.append_nil]
      exact ⟨⟨keys, place⟩, fun _ => trivial⟩
    · refine ((reads_header 1 (by decide)).located_inText.bind fun key =>
        Reads.pure (Statement.table key.item.1 key.item.2 key.span)).mono ?_
      rintro before _ _ left ⟨_, _, _, rfl, ⟨place, keys⟩, rfl, rfl⟩
      rw [List.append_nil]
      exact ⟨⟨keys, place⟩, fun _ => trivial⟩
    · refine ((reads_assignment reads_blanks (reads_value maxDepth)).bind fun answer =>
        Reads.pure (Statement.assign answer.1.1 answer.1.2 answer.2)).mono ?_
      rintro before _ _ left ⟨taken, _, ⟨⟨path, key⟩, value⟩, rfl, ⟨keys, writtenAt, stands⟩, rfl, rfl⟩
      rw [List.append_nil]
      refine ⟨⟨keys, writtenAt⟩, fun between => ?_⟩
      cases path with
      | cons => trivial
      | nil =>
        obtain ⟨indent, name, gap, gap', gap'', written, rfl, span, span', ⟨c, rest, rfl, feed, return'⟩, indentBlank,
          gapBlank, gapBlank', gapBlank''⟩ := stands rfl
        refine ⟨before ++ indent, c :: rest, gap ++ gap', gap'', written, left, ?_, span, ?_, ?_,
          List.forall_mem_append.mpr ⟨gapBlank, gapBlank'⟩, gapBlank''⟩
        · simp only [List.append_assoc, List.cons_append]
        · rw [span']
          simp only [List.append_assoc, List.cons_append]
        -- The line does not end where the key starts.
        · simp only [List.append_assoc] at between
          obtain start | stop := between.blanks indentBlank
          · exact start
          · obtain rfl | rfl := stop c rfl
            · exact absurd rfl feed
            · exact absurd rfl return'
  · rintro before _ statement left ⟨_, taken, _, rfl, ⟨rfl, _⟩, post⟩
    rw [List.append_nil] at post
    exact post

lemma reads_document : Reads document fun before taken statements left =>
    (∀ statement ∈ statements, statement.InText (before ++ taken ++ left)) ∧
      ∀ statement ∈ statements.tail, statement.Stands (before ++ taken ++ left) := by
  unfold document
  refine (Reads.collect (I := fun statements before rest =>
      (∀ statement ∈ statements, statement.InText (before ++ rest)) ∧
      (∀ statement ∈ statements.tail, statement.Stands (before ++ rest)) ∧ (statements ≠ [] → Between before rest))
    (D := fun statements before taken left => (∀ statement ∈ statements, statement.InText (before ++ taken ++ left)) ∧
      ∀ statement ∈ statements.tail, statement.Stands (before ++ taken ++ left)) ?_).mono ?_
  · refine (reads_trivia.bind fun _ => Reads.atEnd.bind (Q := fun _ before taken statement? left =>
      ∀ statement, statement? = some statement → statement.InText (before ++ taken ++ left) ∧
        Between (before ++ taken) left ∧
        (Between before (taken ++ left) → statement.Stands (before ++ taken ++ left))) fun ended => ?_).mono ?_
    · refine .ite (fun _ => (Reads.pure none).mono ?_) fun _ => ?_
      · rintro _ _ _ _ ⟨_, rfl⟩
        exact nofun
      · refine (reads_statement.bind fun statement => reads_endOfLine.bind fun _ => Reads.pure (some statement)).mono ?_
        rintro before _ _ left ⟨first, _, statement, rfl, ⟨inText, stands⟩, second, _, _, rfl, between, rfl, rfl⟩ _ ⟨⟩
        simp only [List.append_assoc, List.append_nil, List.nil_append] at *
        exact ⟨inText, between, stands⟩
    · rintro before _ statement? left ⟨first, _, _, rfl, trivia, _, second, ended, rfl, ⟨rfl, _⟩, post⟩ statements
        ⟨inText, stands, between⟩
      simp only [List.append_assoc, List.nil_append, List.append_nil] at *
      cases statement? with
      | none => exact ⟨inText, stands⟩
      | some statement =>
        obtain ⟨inText', between', stands'⟩ := post statement rfl
        refine ⟨List.forall_mem_append.mpr ⟨inText, List.forall_mem_singleton.mpr inText'⟩, ?_, fun _ => between'⟩
        cases statements with
        | nil => exact nofun
        | cons head statements =>
          rw [List.cons_append, List.tail_cons, List.forall_mem_append, List.forall_mem_singleton]
          exact ⟨stands, stands' (trivia (between (List.cons_ne_nil _ _)))⟩
  · intro before taken statements left post
    obtain ⟨earlier, last, rfl, inText, stands⟩ := post ⟨nofun, nofun, fun impossible => absurd rfl impossible⟩
    simp only [List.append_assoc] at *
    exact ⟨inText, stands⟩

lemma exists_start (text : List Char) :
    ∃ before rest, text = before ++ rest ∧ start text = ⟨byteLength before, rest⟩ := by
  cases text with
  | nil => exact ⟨[], [], rfl, rfl⟩
  | cons c rest =>
    rw [start]
    split
    · exact ⟨[c], rest, rfl, rfl⟩
    · exact ⟨[], c :: rest, rfl, rfl⟩

/-- The statements of a document stand in its text, each at the start of a line; the first one may share its line
with the mark that a text can start with. -/
theorem document_inText {text : List Char} {statements : List Statement} {cursor : Cursor}
    (h : document (start text) = some (statements, cursor)) :
    (∀ statement ∈ statements, statement.InText text) ∧ ∀ statement ∈ statements.tail, statement.Stands text := by
  obtain ⟨before, rest, rfl, hstart⟩ := exists_start text
  rw [hstart] at h
  obtain ⟨taken, left, rfl, _, inText, stands⟩ := reads_document h
  rw [← List.append_assoc]
  exact ⟨inText, stands⟩

end Documents

end Reader

end Polyadic.Toml
