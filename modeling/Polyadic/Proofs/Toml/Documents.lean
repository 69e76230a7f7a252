import Polyadic.Proofs.Toml.Statements

/-!
# What documents say

In the table of a document no key is given twice, and all that it says stands in its text (`parse?_sound`). A document
is bare if its keys are written without quotes or dots, on lines of their own under headers; then every value in one of
its sections stands in the text behind its key (`parse?_stands`).
-/

namespace Polyadic.Toml

open Text (Span Located byteLength)

/-- What the document says stands in the text, and so do the keys of the header that it is under. -/
structure Document.InText (text : List Char) (document : Document) : Prop where
  sound : (Value.table document.root).Sound (.anywhere (Toml.InText text))
  current : KeysPlaced (.anywhere (Toml.InText text)) document.current

section Parsing

variable {text : List Char} {table : Table Value} {document document' : Document} {statement : Statement}

lemma KeyInText.front {path : List Key} {key : Key} (h : KeyInText text path key) :
    KeysPlaced (.anywhere (InText text)) path :=
  fun part mem => h part (List.mem_append_left _ mem)

lemma Document.InText.add (h : document.InText text) (inText : statement.InText text)
    (added : document.add statement = some document') : document'.InText text := by
  cases statement with
  | assign path key value =>
    obtain ⟨root, updated, same⟩ := Option.bind_eq_some_iff.mp added
    cases same
    obtain ⟨keys, place, written⟩ := inText
    have placed : Placed (.anywhere (Toml.InText text)) value :=
      ⟨place, written.sound.mono (fun _ _ => trivial) (fun _ _ _ _ _ => trivial) fun _ => id⟩
    have keeps : Keeps (.anywhere (Toml.InText text)) (Table.assign path key value) :=
      Table.assign_keeps dotted_fits_anywhere keys.front (fun _ _ => trivial) placed
    exact ⟨(Table.update_keeps headerFits_anywhere.path h.current keeps h.sound updated).1, h.current⟩
  | table path key span =>
    obtain ⟨root, defined, same⟩ := Option.bind_eq_some_iff.mp added
    cases same
    obtain ⟨keys, place⟩ := inText
    exact ⟨(Table.define_keeps headerFits_anywhere keys.front place h.sound defined).1, keys⟩
  | element path key span =>
    obtain ⟨root, pushed, same⟩ := Option.bind_eq_some_iff.mp added
    cases same
    obtain ⟨keys, place⟩ := inText
    exact ⟨(Table.push_keeps headerFits_anywhere keys.front place h.sound pushed).1, keys⟩

lemma exists_document (h : parse? text = some table) : ∃ statements cursor,
    Reader.document (Reader.start text) = some (statements, cursor) ∧ tableOf? statements = some table := by
  obtain ⟨⟨statements, cursor⟩, read, made⟩ := Option.bind_eq_some_iff.mp h
  exact ⟨statements, cursor, read, made⟩

/-- No key is given twice in a document, and all that it says stands in its text. -/
theorem parse?_sound (h : parse? text = some table) : (Value.table table).Sound (.anywhere (InText text)) := by
  obtain ⟨statements, cursor, read, made⟩ := exists_document h
  have inText := (Reader.document_inText read).1
  obtain ⟨document, ran, same⟩ := Option.bind_eq_some_iff.mp made
  cases same
  have start : ({} : Document).InText text := ⟨.empty trivial, nofun⟩
  have whole : document.InText text := foldlM_induction ran start fun _ statement _ mem h added =>
    h.add (inText statement mem) added
  exact whole.sound

end Parsing

/-! ## Bare documents -/

/-- A value that headers make. -/
def IsOpened (value : Value) : Prop :=
  (∃ table, value = .table table ∧ (table.kind = .header ∨ table.kind = .implied)) ∨
    ∃ items, value = .array true items

/-- Tables that headers make have entries that headers make, and others that are given. -/
def Shape.opened (Given : Key → Located Value → Prop) : Shape where
  Kind _ := True
  Entry kind key value := kind = .header ∨ kind = .implied → IsOpened value.item ∨ Given key value
  Place _ := True

/-- Headers make all entries of the table. -/
def AllOpened (table : Table Value) : Prop :=
  ∀ entry ∈ table.entries, IsOpened entry.2.item

section Opened

variable {Given : Key → Located Value → Prop} {table table' : Table Value} {path : List Key} {key : Key} {span : Span}
  {value : Located Value} {change : Table Value → Option (Table Value)}

lemma headerFits_opened
    (inline : ∀ key value table, Given key value → value.item = .table table → table.kind = .inline) :
    HeaderFits (.opened Given) where
  path := {
    made := trivial
    make _ _ inner _ kind _ := .inl (.inl ⟨inner, rfl, .inr kind⟩)
    enter kind key span inner inner' admitted same entry header := by
      obtain (⟨table, ⟨⟩, kind⟩ | ⟨_, ⟨⟩⟩) | given := entry header
      · exact .inl (.inl ⟨inner', rfl, by rwa [same]⟩)
      · rw [inline _ _ _ given rfl] at admitted
        cases admitted
    last _ _ _ _ items' _ _ := .inl (.inr ⟨items', rfl⟩) }
  header := trivial
  define _ _ _ entries _ := .inl (.inl ⟨_, rfl, .inl rfl⟩)
  promote _ _ entry _ := entry (.inr rfl)
  push _ _ _ items _ := .inl (.inr ⟨items, rfl⟩)

lemma keysPlaced_opened : KeysPlaced (.opened Given) path :=
  fun _ _ => trivial

/-- Headers make no table that stands between braces. -/
lemma IsWritten.opened {text : List Char} {value : Value} (h : IsWritten text value) : value.Sound (.opened Given) := by
  refine h.sound.mono (fun _ _ => trivial) (fun kind key value between _ header => ?_) fun _ _ => trivial
  obtain rfl | rfl := between
  · obtain header | header := header
    · cases header
    · cases header
  · obtain header | header := header
    · cases header
    · cases header

lemma AllOpened.add (h : AllOpened table) (opened : IsOpened value.item) : AllOpened (table.add key value) := by
  intro entry mem
  obtain mem | rfl := Table.mem_add.mp mem
  · exact h entry mem
  · exact opened

lemma AllOpened.put {name : String} (h : AllOpened table) (opened : IsOpened value.item) :
    AllOpened (table.put name value) := by
  intro entry mem
  obtain mem | ⟨_, _, _, same⟩ := Table.mem_put mem
  · exact h entry mem
  · rw [same]
    exact opened

lemma AllOpened.replace (h : AllOpened table) (opened : IsOpened value.item) : AllOpened (table.replace key value) := by
  intro entry mem
  obtain mem | rfl := Table.mem_replace mem
  · exact h entry mem
  · exact opened

lemma AllOpened.get? {name : String} (h : AllOpened table) (given : table.get? name = some value) :
    IsOpened value.item := by
  obtain ⟨key, _, mem⟩ := Table.exists_mem_of_get? given
  exact h _ mem

/-- What a path leads to is changed inside of an entry that headers make. -/
lemma AllOpened.update (fits : HeaderFits (.opened Given)) (keeps : Keeps (.opened Given) change)
    (here : path = [] → ∀ table', change table = some table' → AllOpened table')
    (sound : (Value.table table).Sound (.opened Given)) (h : AllOpened table)
    (updated : table.update .header change path = some table') : AllOpened table' := by
  cases path with
  | nil => exact here rfl _ updated
  | cons key path =>
    unfold Table.update at updated
    split at updated
    · obtain ⟨inner, made, same⟩ := Option.bind_eq_some_iff.mp updated
      cases same
      have kind := (Table.update_keeps fits.path keysPlaced_opened keeps (.empty trivial) made).2
      exact h.add (.inl ⟨inner, rfl, .inr kind⟩)
    · rename_i span inner given
      obtain ⟨_, _, updated⟩ := Option.bind_eq_some_iff.mp updated
      obtain ⟨inner', changed, same⟩ := Option.bind_eq_some_iff.mp updated
      cases same
      have kind := (Table.update_keeps fits.path keysPlaced_opened keeps (sound.get? given).sound changed).2
      obtain ⟨_, ⟨⟩, opened⟩ | ⟨_, ⟨⟩⟩ := h.get? given
      exact h.put (.inl ⟨inner', rfl, by rwa [kind]⟩)
    · split at updated
      · obtain ⟨inner', _, same⟩ := Option.bind_eq_some_iff.mp updated
        cases same
        exact h.put (.inr ⟨_, rfl⟩)
      · cases updated
    · cases updated

lemma AllOpened.define (fits : HeaderFits (.opened Given)) (sound : (Value.table table).Sound (.opened Given))
    (h : AllOpened table) (defined : table.define path key span = some table') : AllOpened table' := by
  have split : table.define path key span = table.update .header (Table.define [] key span) path := rfl
  rw [split] at defined
  refine h.update fits (Table.define_keeps fits keysPlaced_opened trivial) (fun _ table' changed => ?_) sound defined
  rw [Table.define, Table.update] at changed
  split at changed
  · cases changed
    exact h.add (.inl ⟨_, rfl, .inl rfl⟩)
  · split at changed
    · cases changed
      exact h.replace (.inl ⟨_, rfl, .inl rfl⟩)
    · cases changed
  · cases changed

lemma AllOpened.push (fits : HeaderFits (.opened Given)) (sound : (Value.table table).Sound (.opened Given))
    (h : AllOpened table) (pushed : table.push path key span = some table') : AllOpened table' := by
  have split : table.push path key span = table.update .header (Table.push [] key span) path := rfl
  rw [split] at pushed
  refine h.update fits (Table.push_keeps fits keysPlaced_opened trivial) (fun _ table' changed => ?_) sound pushed
  rw [Table.push, Table.update] at changed
  split at changed
  · cases changed
    exact h.add (.inr ⟨_, rfl⟩)
  · cases changed
    exact h.put (.inr ⟨_, rfl⟩)
  · cases changed

end Opened

/-- The statement gives a value to a key that is written without quotes or dots. -/
def Statement.IsBare (text : List Char) : Statement → Prop
  | .assign path key _ => path = [] ∧ Text.slice? text key.span = some key.item.toList
  | _ => True

/-- The text is a list of statements in which every key with a value is written without quotes or dots, on a line of
its own under a header. -/
def IsBare (text : List Char) : Prop :=
  ∃ statements cursor, Reader.document (Reader.start text) = some (statements, cursor) ∧
    (∀ path key value, statements.head? ≠ some (.assign path key value)) ∧
      ∀ statement ∈ statements, statement.IsBare text

instance (text : List Char) (statement : Statement) : Decidable (statement.IsBare text) :=
  match statement with
  | .assign path key _ => inferInstanceAs (Decidable (path = [] ∧ Text.slice? text key.span = some key.item.toList))
  | .table .. | .element .. => .isTrue trivial

instance (statements : List Statement) :
    Decidable (∀ path key value, statements.head? ≠ some (.assign path key value)) :=
  match statements with
  | [] | .table .. :: _ | .element .. :: _ => .isTrue nofun
  | .assign path key value :: _ => .isFalse fun headed => headed path key value rfl

instance (text : List Char) : Decidable (IsBare text) :=
  match read : Reader.document (Reader.start text) with
  | none => .isFalse fun ⟨_, _, other, _⟩ => absurd (read.symm.trans other) nofun
  | some (statements, cursor) =>
    decidable_of_iff ((∀ path key value, statements.head? ≠ some (.assign path key value)) ∧
        ∀ statement ∈ statements, statement.IsBare text)
      ⟨fun bare => ⟨statements, cursor, read, bare⟩, fun ⟨_, _, other, bare⟩ => by
        cases read.symm.trans other
        exact bare⟩

section Bare

variable {Given : Key → Located Value → Prop} {document document' : Document} {statement : Statement}
  {text : List Char} {table : Table Value}

/-- The document as far as headers make it: what they do not make is given. -/
structure Document.Opened (Given : Key → Located Value → Prop) (document : Document) : Prop where
  sound : (Value.table document.root).Sound (.opened Given)
  allOpened : AllOpened document.root

/-- Behind its first header, a document with bare keys has sections that headers make. -/
lemma Document.Opened.add (fits : HeaderFits (.opened Given)) (h : document.Opened Given)
    (inText : statement.InText text)
    (given : ∀ path key value, statement = .assign path key value →
      path = [] ∧ Given key value ∧ document.current ≠ [])
    (added : document.add statement = some document') : document'.Opened Given ∧ document'.current ≠ [] := by
  cases statement with
  | assign path key value =>
    obtain ⟨rfl, given, under⟩ := given _ _ _ rfl
    obtain ⟨root, updated, same⟩ := Option.bind_eq_some_iff.mp added
    cases same
    have keeps : Keeps (.opened Given) (Table.assign [] key value) := by
      rw [Table.assign_nil]
      exact Table.insert_keeps (fun _ _ _ => .inr given) ⟨trivial, inText.2.written.opened⟩
    exact ⟨⟨(Table.update_keeps fits.path keysPlaced_opened keeps h.sound updated).1,
      h.allOpened.update fits keeps (fun none => absurd none under) h.sound updated⟩, under⟩
  | table path key span =>
    obtain ⟨root, defined, same⟩ := Option.bind_eq_some_iff.mp added
    cases same
    exact ⟨⟨(Table.define_keeps fits keysPlaced_opened trivial h.sound defined).1,
      h.allOpened.define fits h.sound defined⟩, List.append_ne_nil_of_right_ne_nil _ (List.cons_ne_nil _ _)⟩
  | element path key span =>
    obtain ⟨root, pushed, same⟩ := Option.bind_eq_some_iff.mp added
    cases same
    exact ⟨⟨(Table.push_keeps fits keysPlaced_opened trivial h.sound pushed).1,
      h.allOpened.push fits h.sound pushed⟩, List.append_ne_nil_of_right_ne_nil _ (List.cons_ne_nil _ _)⟩

/-- Statements with bare keys under headers make a document in which headers make the sections. -/
lemma opened_of_bare {statements : List Statement} (inText : ∀ statement ∈ statements, statement.InText text)
    (headed : ∀ path key value, statements.head? ≠ some (.assign path key value))
    (bare : ∀ statement ∈ statements, statement.IsBare text) (ran : statements.foldlM Document.add {} = some document) :
    document.Opened fun key value => .assign [] key value ∈ statements := by
  have fits : HeaderFits (.opened fun key value => .assign [] key value ∈ statements) :=
    headerFits_opened fun key value table mem same => (inText _ mem).2.written.inline table same
  have start : ({} : Document).Opened fun key value => .assign [] key value ∈ statements := ⟨.empty trivial, nofun⟩
  cases statements with
  | nil =>
    cases ran
    exact start
  -- Behind the first header there is always one that a key is under.
  | cons head rest =>
    obtain ⟨first, added, ran⟩ := Option.bind_eq_some_iff.mp ran
    have begun := start.add fits (inText _ List.mem_cons_self)
      (fun _ _ _ same => absurd (congrArg _ same) (headed _ _ _)) added
    refine (foldlM_induction (P := fun document => document.Opened (fun key value =>
      .assign [] key value ∈ head :: rest) ∧ document.current ≠ []) ran begun ?_).1
    rintro document statement document' mem ⟨opened, under⟩ added
    refine opened.add fits (inText _ (List.mem_cons_of_mem _ mem)) (fun path key value same => ?_) added
    subst same
    obtain ⟨rfl, _⟩ := bare _ (List.mem_cons_of_mem _ mem)
    exact ⟨rfl, List.mem_cons_of_mem _ mem, under⟩

/-- In a bare document headers make the sections, and what else a section holds stands in the text behind its key. -/
theorem parse?_stands (bare : IsBare text) (h : parse? text = some table) : AllOpened table ∧
    ∀ part span inner name value, table.get? part = some ⟨span, .table inner⟩ → inner.get? name = some value →
      IsOpened value.item ∨
        ∃ key, Stands text key value ∧ Text.slice? text key.span = some name.toList := by
  obtain ⟨statements, cursor, read, headed, bare⟩ := bare
  obtain ⟨statements', cursor', read', made⟩ := exists_document h
  cases read.symm.trans read'
  obtain ⟨inText, stands⟩ := Reader.document_inText read
  obtain ⟨document, ran, same⟩ := Option.bind_eq_some_iff.mp made
  cases same
  have opened := opened_of_bare inText headed bare ran
  refine ⟨opened.allOpened, fun part span inner name value hpart hname => ?_⟩
  obtain ⟨_, ⟨⟩, kind⟩ | ⟨_, ⟨⟩⟩ := opened.allOpened.get? hpart
  obtain ⟨key, rfl, mem⟩ := Table.exists_mem_of_get? hname
  obtain isOpened | given := (Value.sound_table_iff.mp (opened.sound.get? hpart).sound).1.entries mem kind
  · exact .inl isOpened
  · refine .inr ⟨key, ?_, (bare _ given).2⟩
    cases statements with
    | nil => cases given
    | cons head statements =>
      obtain _ | ⟨_, given⟩ := given
      · exact absurd rfl (headed _ _ _)
      · exact stands _ given

end Bare

end Polyadic.Toml
