import Polyadic.Toml.Table
import Mathlib

/-!
# What tables hold

In the tables that a document builds no key is given twice, a table of one kind takes other entries than a table of
another, and values stand where they were written. This is said of all that stands in a value at once
(`Value.Sound`), and kept by what a header or a dotted key changes (`Table.update_keeps`).
-/

namespace Polyadic.Toml

open Text (Span Located)

/-! ## Keys -/

namespace Table

variable {α : Type}

/-- The names of the keys of a table. -/
def names (table : Table α) : List String :=
  table.entries.map (·.1.item)

section Entries

variable {table : Table α} {key : Key} {name : String} {value : Located α} {entry : Key × Located α}

lemma names_eq_of_mem (h : entry ∈ table.entries) : entry.1.item ∈ table.names :=
  List.mem_map_of_mem h

lemma get?_eq_none_iff : table.get? name = none ↔ name ∉ table.names := by
  rw [get?, Option.map_eq_none_iff, List.find?_eq_none, names, List.mem_map, not_exists]
  exact forall_congr' fun entry => by rw [not_and, beq_iff_eq]

lemma exists_mem_of_get? (h : table.get? name = some value) :
    ∃ key, key.item = name ∧ (key, value) ∈ table.entries := by
  obtain ⟨⟨key, _⟩, found, rfl⟩ := Option.map_eq_some_iff.mp h
  have same := List.find?_some found
  exact ⟨key, beq_iff_eq.mp same, List.mem_of_find?_eq_some found⟩

/-- Where no key is given twice, every entry is found under its name. -/
lemma get?_eq_some (nodup : table.names.Nodup) (h : (key, value) ∈ table.entries) :
    table.get? key.item = some value := by
  cases found : table.get? key.item with
  | none => exact absurd (names_eq_of_mem h) (get?_eq_none_iff.mp found)
  | some other =>
    obtain ⟨key', same, mem⟩ := exists_mem_of_get? found
    cases List.inj_on_of_nodup_map nodup h mem same.symm
    rfl

lemma names_add : (table.add key value).names = table.names ++ [key.item] := by
  rw [names, add, List.map_append, List.map_singleton, names]

lemma names_put : (table.put name value).names = table.names := by
  rw [names, put, List.map_map, names]
  refine List.map_congr_left fun entry _ => ?_
  dsimp only [Function.comp]
  split <;> rfl

lemma names_replace : (table.replace key value).names = table.names := by
  rw [names, replace, List.map_map, names]
  refine List.map_congr_left fun entry _ => ?_
  dsimp only [Function.comp]
  split
  · rename_i same
    exact (beq_iff_eq.mp same).symm
  · rfl

lemma mem_add : entry ∈ (table.add key value).entries ↔ entry ∈ table.entries ∨ entry = (key, value) := by
  rw [add, List.mem_append, List.mem_singleton]

lemma mem_put (h : entry ∈ (table.put name value).entries) :
    entry ∈ table.entries ∨ ∃ old, (entry.1, old) ∈ table.entries ∧ entry.1.item = name ∧ entry.2 = value := by
  obtain ⟨⟨old, was⟩, mem, rfl⟩ := List.mem_map.mp h
  dsimp only
  split
  · rename_i same
    exact .inr ⟨was, mem, beq_iff_eq.mp same, rfl⟩
  · exact .inl mem

lemma mem_replace (h : entry ∈ (table.replace key value).entries) :
    entry ∈ table.entries ∨ entry = (key, value) := by
  obtain ⟨⟨old, was⟩, mem, rfl⟩ := List.mem_map.mp h
  dsimp only
  split
  · exact .inr rfl
  · exact .inl mem

end Entries

end Table

/-! ## Values in a value -/

/-- A value stands somewhere in another, or is it. -/
inductive Value.Holds : Value → Value → Prop where
  | self {value} : Holds value value
  | entry {table key value inner} : (key, value) ∈ table.entries → Holds value.item inner → Holds (.table table) inner
  | item {ofTables items value inner} : value ∈ items → Holds value.item inner → Holds (.array ofTables items) inner

/-- Of which kinds tables may be, which entries a table of a kind may have, and where values may stand. -/
structure Shape where
  Kind : TableKind → Prop
  Entry : TableKind → Key → Located Value → Prop
  Place : Span → Prop

/-- Tables of all kinds with any entries, at certain places. -/
def Shape.anywhere (Place : Span → Prop) : Shape where
  Kind _ := True
  Entry _ _ _ := True
  Place := Place

/-- The table has a shape, and no key is given twice in it. -/
structure Table.Sound (shape : Shape) (table : Table Value) : Prop where
  nodup : table.names.Nodup
  kind : shape.Kind table.kind
  entries : ∀ ⦃key value⦄, (key, value) ∈ table.entries → shape.Entry table.kind key value

/-- The value is a table. -/
def Value.IsTable (value : Value) : Prop :=
  ∃ inner, value = .table inner

/-- What the value itself consists of has a shape. -/
def Shape.Admits (shape : Shape) : Value → Prop
  | .table table => table.Sound shape ∧ ∀ entry ∈ table.entries, shape.Place entry.2.span
  | .array ofTables items => ∀ item ∈ items, shape.Place item.span ∧ (ofTables = true → item.item.IsTable)
  | _ => True

/-- All that stands in a value has a shape. -/
def Value.Sound (shape : Shape) (value : Value) : Prop :=
  ∀ ⦃inner⦄, value.Holds inner → shape.Admits inner

/-- A value has a shape and stands where it may. -/
structure Placed (shape : Shape) (value : Located Value) : Prop where
  place : shape.Place value.span
  sound : value.item.Sound shape

namespace Value

variable {shape shape' : Shape} {table : Table Value} {value : Value}

lemma sound_table_iff : (Value.table table).Sound shape ↔
    table.Sound shape ∧ ∀ entry ∈ table.entries, Placed shape entry.2 := by
  constructor
  · intro h
    exact ⟨(h .self).1, fun entry mem => ⟨(h .self).2 entry mem, fun inner holds => h (.entry mem holds)⟩⟩
  · rintro ⟨self, entries⟩ inner holds
    cases holds with
    | self => exact ⟨self, fun entry mem => (entries entry mem).place⟩
    | entry mem holds => exact (entries _ mem).sound holds

lemma sound_array_iff {ofTables : Bool} {items : List (Located Value)} :
    (Value.array ofTables items).Sound shape ↔
      ∀ item ∈ items, Placed shape item ∧ (ofTables = true → item.item.IsTable) := by
  constructor
  · intro h item mem
    obtain ⟨place, isTable⟩ := h .self item mem
    exact ⟨⟨place, fun inner holds => h (.item mem holds)⟩, isTable⟩
  · intro h inner holds
    cases holds with
    | self => exact fun item mem => ⟨(h item mem).1.place, (h item mem).2⟩
    | item mem holds => exact (h _ mem).1.sound holds

namespace Sound

lemma mono (h : value.Sound shape) (kinds : ∀ kind, shape.Kind kind → shape'.Kind kind)
    (entries : ∀ kind key value, shape.Kind kind → shape.Entry kind key value → shape'.Entry kind key value)
    (places : ∀ span, shape.Place span → shape'.Place span) : value.Sound shape' := by
  intro inner holds
  have admitted := h holds
  cases inner with
  | table table =>
    obtain ⟨⟨nodup, kind, given⟩, placed⟩ := admitted
    exact ⟨⟨nodup, kinds _ kind, fun key value mem => entries _ _ _ kind (given mem)⟩,
      fun entry mem => places _ (placed entry mem)⟩
  | array ofTables items => exact fun item mem => ⟨places _ (admitted item mem).1, (admitted item mem).2⟩
  | string | integer | real | boolean | date => trivial

lemma empty {kind : TableKind} (permitted : shape.Kind kind) : (Value.table ⟨kind, []⟩).Sound shape :=
  sound_table_iff.mpr ⟨⟨List.nodup_nil, permitted, nofun⟩, nofun⟩

lemma get? {name : String} {value : Located Value} (h : (Value.table table).Sound shape)
    (given : table.get? name = some value) : Placed shape value := by
  obtain ⟨key, _, mem⟩ := Table.exists_mem_of_get? given
  exact (sound_table_iff.mp h).2 _ mem

/-- A change of entries keeps a table sound if what is new among them fits. -/
lemma of_entries {table' : Table Value} (h : (Value.table table).Sound shape) (nodup : table'.names.Nodup)
    (kind : table'.kind = table.kind)
    (entries : ∀ key value, (key, value) ∈ table'.entries →
      (key, value) ∈ table.entries ∨ (shape.Entry table.kind key value ∧ Placed shape value)) :
    (Value.table table').Sound shape := by
  obtain ⟨⟨_, permitted, fits⟩, inner⟩ := sound_table_iff.mp h
  refine sound_table_iff.mpr ⟨⟨nodup, kind ▸ permitted, fun key value mem => ?_⟩, fun (key, value) mem => ?_⟩
  · rw [kind]
    obtain old | ⟨entry, _⟩ := entries key value mem
    · exact fits old
    · exact entry
  · obtain old | ⟨_, placed⟩ := entries key value mem
    · exact inner _ old
    · exact placed

lemma nodup (h : (Value.table table).Sound shape) : table.names.Nodup :=
  (sound_table_iff.mp h).1.nodup

lemma add {key : Key} {value : Located Value} (h : (Value.table table).Sound shape)
    (missing : table.get? key.item = none) (entry : shape.Entry table.kind key value)
    (placed : Placed shape value) : (Value.table (table.add key value)).Sound shape := by
  refine h.of_entries ?_ rfl fun key' value' mem => ?_
  · rw [Table.names_add]
    exact h.nodup.append (List.nodup_singleton _) (List.disjoint_singleton.mpr (Table.get?_eq_none_iff.mp missing))
  · refine (Table.mem_add.mp mem).imp_right fun same => ?_
    cases same
    exact ⟨entry, placed⟩

lemma put {name : String} {value old : Located Value} (h : (Value.table table).Sound shape)
    (given : table.get? name = some old)
    (entry : ∀ key, shape.Entry table.kind key old → shape.Entry table.kind key value)
    (placed : Placed shape value) : (Value.table (table.put name value)).Sound shape := by
  have nodup : (table.put name value).names.Nodup := by
    rw [Table.names_put]
    exact h.nodup
  refine h.of_entries nodup rfl fun key value' mem => ?_
  refine (Table.mem_put mem).imp_right ?_
  rintro ⟨was, before, rfl, rfl⟩
  cases (Table.get?_eq_some h.nodup before).symm.trans given
  exact ⟨entry key ((sound_table_iff.mp h).1.entries before), placed⟩

lemma replace {key : Key} {value : Located Value} (h : (Value.table table).Sound shape)
    (entry : shape.Entry table.kind key value) (placed : Placed shape value) :
    (Value.table (table.replace key value)).Sound shape := by
  have nodup : (table.replace key value).names.Nodup := by
    rw [Table.names_replace]
    exact h.nodup
  refine h.of_entries nodup rfl fun key' value' mem => ?_
  refine (Table.mem_replace mem).imp_right fun same => ?_
  cases same
  exact ⟨entry, placed⟩

end Sound

end Value

/-! ## Paths -/

/-- What a path makes, and what it changes on its way, fits the shape. -/
structure Descent.Fits (descent : Descent) (shape : Shape) : Prop where
  made : shape.Kind descent.made
  make : ∀ kind (key : Key) (inner : Table Value), shape.Kind kind → inner.kind = descent.made →
    shape.Entry kind key ⟨key.span, .table inner⟩
  enter : ∀ kind key span (inner inner' : Table Value), descent.admits inner.kind = true → inner'.kind = inner.kind →
    shape.Entry kind key ⟨span, .table inner⟩ → shape.Entry kind key ⟨span, .table inner'⟩
  last : ∀ kind key span items items', shape.Entry kind key ⟨span, .array true items⟩ →
    shape.Entry kind key ⟨span, .array true items'⟩

/-- What headers make fits the shape. -/
structure HeaderFits (shape : Shape) : Prop where
  path : Descent.header.Fits shape
  header : shape.Kind .header
  define : ∀ kind key span entries, shape.Entry kind key ⟨span, .table ⟨.header, entries⟩⟩
  promote : ∀ key value, shape.Entry .implied key value → shape.Entry .header key value
  push : ∀ kind key span items, shape.Entry kind key ⟨span, .array true items⟩

/-- The change keeps sound tables sound and of their kind. -/
def Keeps (shape : Shape) (change : Table Value → Option (Table Value)) : Prop :=
  ∀ ⦃table table'⦄, (Value.table table).Sound shape → change table = some table' →
    (Value.table table').Sound shape ∧ table'.kind = table.kind

/-- The keys of a path stand where values may, which the tables do that they make. -/
def KeysPlaced (shape : Shape) (path : List Key) : Prop :=
  ∀ key ∈ path, shape.Place key.span

section Anywhere

variable {Place : Span → Prop}

lemma headerFits_anywhere : HeaderFits (.anywhere Place) where
  path := ⟨trivial, fun _ _ _ _ _ => trivial, fun _ _ _ _ _ _ _ _ => trivial, fun _ _ _ _ _ _ => trivial⟩
  header := trivial
  define _ _ _ _ := trivial
  promote _ _ _ := trivial
  push _ _ _ _ := trivial

lemma dotted_fits_anywhere : Descent.dotted.Fits (.anywhere Place) :=
  ⟨trivial, fun _ _ _ _ _ => trivial, fun _ _ _ _ _ _ _ _ => trivial, fun _ _ _ _ _ _ => trivial⟩

end Anywhere

/-- What each of a list of changes keeps holds after all of them. -/
lemma foldlM_induction {α σ : Type} {P : σ → Prop} {step : σ → α → Option σ} {items : List α} {first last : σ}
    (ran : items.foldlM step first = some last) (start : P first)
    (keeps : ∀ state item state', item ∈ items → P state → step state item = some state' → P state') : P last := by
  induction items generalizing first with
  | nil =>
    cases ran
    exact start
  | cons item items ih =>
    obtain ⟨next, stepped, ran⟩ := Option.bind_eq_some_iff.mp ran
    exact ih ran (keeps _ _ _ List.mem_cons_self start stepped)
      fun state item state' mem => keeps state item state' (List.mem_cons_of_mem _ mem)

namespace Table

section Paths

variable {shape : Shape} {descent : Descent} {change : Table Value → Option (Table Value)} {path : List Key} {key : Key}
  {value : Located Value} {span : Span}

/-- A path leads to a change that keeps what the change keeps. -/
theorem update_keeps (fits : descent.Fits shape) (keys : KeysPlaced shape path) (keeps : Keeps shape change) :
    Keeps shape (update descent change path) := by
  induction path with
  | nil => exact keeps
  | cons key path ih =>
    obtain ⟨place, keys⟩ := List.forall_mem_cons.mp keys
    intro table table' sound updated
    unfold update at updated
    split at updated
    · rename_i missing
      obtain ⟨inner, made, same⟩ := Option.bind_eq_some_iff.mp updated
      cases same
      obtain ⟨inside, kind⟩ := ih keys (.empty fits.made) made
      have permitted := (Value.sound_table_iff.mp sound).1.kind
      exact ⟨sound.add missing (fits.make _ _ _ permitted kind) ⟨place, inside⟩, rfl⟩
    · rename_i span inner given
      obtain ⟨_, admitted, updated⟩ := Option.bind_eq_some_iff.mp updated
      obtain ⟨inner', changed, same⟩ := Option.bind_eq_some_iff.mp updated
      cases same
      have old := sound.get? given
      obtain ⟨inside, kind⟩ := ih keys old.sound changed
      exact ⟨sound.put given (fun _ => fits.enter _ _ _ _ _ ((Option.guard_eq_some' _).mp admitted) kind)
        ⟨old.place, inside⟩, rfl⟩
    · rename_i span items given
      split at updated
      · rename_i itemSpan inner before last
        obtain ⟨inner', changed, same⟩ := Option.bind_eq_some_iff.mp updated
        cases same
        have old := sound.get? given
        have inside := Value.sound_array_iff.mp old.sound
        have last : items = before.reverse ++ [⟨itemSpan, .table inner⟩] := by
          rw [← List.reverse_reverse items, last, List.reverse_cons]
        rw [last, List.forall_mem_append, List.forall_mem_singleton] at inside
        obtain ⟨earlier, inner, _⟩ := inside
        obtain ⟨inside, _⟩ := ih keys inner.sound changed
        refine ⟨sound.put given (fun _ => fits.last _ _ _ _ _) ⟨old.place, ?_⟩, rfl⟩
        rw [Value.sound_array_iff, List.forall_mem_append, List.forall_mem_singleton]
        exact ⟨earlier, ⟨inner.place, inside⟩, fun _ => ⟨inner', rfl⟩⟩
      · cases updated
    · cases updated

lemma insert_keeps (entry : ∀ kind, shape.Kind kind → shape.Entry kind key value) (placed : Placed shape value) :
    Keeps shape (insert key value) := by
  intro table table' within inserted
  unfold insert at inserted
  split at inserted
  · rename_i missing
    cases inserted
    exact ⟨within.add missing (entry _ (Value.sound_table_iff.mp within).1.kind) placed, rfl⟩
  · cases inserted

/-- A key of one part is given its value in the table itself. -/
lemma assign_nil : assign [] key value = insert key value := by
  funext table
  simp only [assign, update, List.isEmpty_nil, Bool.true_or, if_true]

lemma assign_keeps (fits : Descent.dotted.Fits shape) (keys : KeysPlaced shape path)
    (entry : ∀ kind, shape.Kind kind → shape.Entry kind key value) (placed : Placed shape value) :
    Keeps shape (assign path key value) := by
  refine update_keeps fits keys fun table table' within changed => ?_
  split at changed
  · exact insert_keeps entry placed within changed
  · cases changed

lemma define_keeps (fits : HeaderFits shape) (keys : KeysPlaced shape path) (place : shape.Place span) :
    Keeps shape (define path key span) := by
  refine update_keeps fits.path keys fun table table' within changed => ?_
  split at changed
  · rename_i missing
    cases changed
    exact ⟨within.add missing (fits.define _ _ _ _) ⟨place, .empty fits.header⟩, rfl⟩
  · rename_i _ inner given
    split at changed
    · rename_i implied
      cases changed
      refine ⟨within.replace (fits.define _ _ _ _) ⟨place, ?_⟩, rfl⟩
      obtain ⟨⟨nodup, _, entries⟩, inside⟩ := Value.sound_table_iff.mp (within.get? given).sound
      rw [implied] at entries
      exact Value.sound_table_iff.mpr
        ⟨⟨nodup, fits.header, fun _ _ mem => fits.promote _ _ (entries mem)⟩, inside⟩
    · cases changed
  · cases changed

lemma push_keeps (fits : HeaderFits shape) (keys : KeysPlaced shape path) (place : shape.Place span) :
    Keeps shape (push path key span) := by
  refine update_keeps fits.path keys fun table table' within changed => ?_
  have item : Placed shape ⟨span, .table ⟨.header, []⟩⟩ ∧ (true = true → (Value.table ⟨.header, []⟩).IsTable) :=
    ⟨⟨place, .empty fits.header⟩, fun _ => ⟨_, rfl⟩⟩
  split at changed
  · rename_i missing
    cases changed
    refine ⟨within.add missing (fits.push _ _ _ _) ⟨place, ?_⟩, rfl⟩
    rw [Value.sound_array_iff, List.forall_mem_singleton]
    exact item
  · rename_i first items given
    cases changed
    have old := within.get? given
    refine ⟨within.put given (fun _ _ => fits.push _ _ _ _) ⟨old.place, ?_⟩, rfl⟩
    rw [Value.sound_array_iff, List.forall_mem_append, List.forall_mem_singleton]
    exact ⟨Value.sound_array_iff.mp old.sound, item⟩
  · cases changed

end Paths

end Table

end Polyadic.Toml
