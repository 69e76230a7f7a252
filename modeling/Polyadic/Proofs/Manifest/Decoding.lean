import Polyadic.Manifest.Decode
import Polyadic.Proofs.Except
import Polyadic.Proofs.Toml.Tables

/-!
# What a document says of a manifest

The fields of a section are decoded one by one, and none of them touches another. What a field holds afterwards is
what its value says, or the default where it has none (`sectionDecoder_eq_ok`), and so it is with all the fields of a
draft (`Draft.ofTable_eq_ok`).
-/

namespace Polyadic.Manifest

open Text (Span Located)
open Toml (Key Value Table Shape)

variable {σ α β : Type}

/-! ## Fields -/

/-- What the field of a name changes: a part of the record, for what the decoder reads. Other fields leave that part
as it is. -/
def Field.Agrees (name : String) (decoder : Decoder α) (part : σ → α) (field : Field σ) : Prop :=
  ∀ value record record', field.decode value record = .ok record' →
    if field.name = name then decoder value = .ok (part record') else part record' = part record

/-- What is decoded where a value is given, and the default where none is. -/
def Decodes (decoder : Decoder α) (default : α) : Option (Located Value) → α → Prop
  | none, result => result = default
  | some value, result => decoder value = .ok result

section Decoders

variable {given : Option (Located Value)} {value : Located Value}

/-- What is not met by default is given. -/
lemma Decodes.exists_given {decoder : Decoder α} {default result : α} (h : Decodes decoder default given result)
    (ne : result ≠ default) : ∃ value, given = some value ∧ decoder value = .ok result := by
  cases given with
  | none => exact absurd h ne
  | some value => exact ⟨value, rfl, h⟩

lemma text_eq_ok {expected text : String} (h : Decoder.text expected value = .ok text) : value.item = .string text := by
  obtain ⟨place, item⟩ := value
  cases item with
  | string other =>
    cases h
    rfl
  | integer | real | boolean | date | array | table => cases h

lemma byte_eq_ok {n : Nat} (h : Decoder.byte value = .ok n) : value.item = .integer (some n) := by
  obtain ⟨place, item⟩ := value
  unfold Decoder.byte at h
  split at h
  · rename_i place' number same
    cases same
    split at h
    · cases h
      rw [Int.toNat_of_nonneg (by omega)]
    · split at h
      · cases h
      · cases h
  · cases h

end Decoders

namespace Field

variable {name name' : String} {decoder : Decoder α} {decoder' : Decoder β} {f : σ → α} {put : α → σ → σ}
  {put' : β → σ → σ}

lemma Agrees.own (f_put : ∀ a record, f (put a record) = a) :
    Agrees name decoder f (.of name decoder put) := by
  intro value record record' decoded
  obtain ⟨a, hdecoder, ⟨⟩⟩ := bind_eq_ok.mp decoded
  have same : (Field.of name decoder put).name = name := rfl
  rw [if_pos same, hdecoder, f_put]

lemma Agrees.other (ne : name' ≠ name) (f_put : ∀ b record, f (put' b record) = f record) :
    Agrees name decoder f (.of name' decoder' put') := by
  intro value record record' decoded
  obtain ⟨b, _, ⟨⟩⟩ := bind_eq_ok.mp decoded
  have other : (Field.of name' decoder' put').name ≠ name := ne
  rw [if_neg other, f_put]

end Field

section Steps

variable {fields : List (Field σ)} {name : String} {decoder : Decoder α} {f : σ → α}
  {steps : List (Field σ × Located Value)} {first last : σ}

/-- One field after the other is decoded. -/
lemma decodes_of_steps (agrees : ∀ step ∈ steps, step.1.Agrees name decoder f)
    (nodup : (steps.map (·.1.name)).Nodup)
    (ran : steps.foldlM (fun record (field, value) => field.decode value record) first = .ok last) :
    Decodes decoder (f first) ((steps.map fun step => (step.1.name, step.2)).lookup name) (f last) := by
  induction steps generalizing first with
  | nil =>
    cases ran
    rfl
  | cons step steps ih =>
    obtain ⟨field, value⟩ := step
    obtain ⟨next, decoded, ran⟩ := bind_eq_ok.mp ran
    obtain ⟨fieldAgrees, agrees⟩ := List.forall_mem_cons.mp agrees
    rw [List.map_cons, List.nodup_cons] at nodup
    have later := ih agrees nodup.2 ran
    have now := fieldAgrees _ _ _ decoded
    rw [List.map_cons, List.lookup_cons]
    by_cases same : field.name = name
    · subst same
      rw [if_pos rfl] at now
      have none : (steps.map fun step => (step.1.name, step.2)).lookup field.name = none := by
        rw [List.lookup_eq_none_iff, List.forall_mem_map]
        refine fun other mem => bne_iff_ne.mpr fun clash => nodup.1 ?_
        rw [clash]
        exact List.mem_map_of_mem (f := fun step : Field σ × Located Value => step.1.name) mem
      rw [none] at later
      rw [beq_self_eq_true]
      exact now.trans (congrArg _ (Eq.symm later))
    · rw [if_neg same] at now
      rw [beq_eq_false_iff_ne.mpr (Ne.symm same)]
      rwa [now] at later

/-- The fields of the entries of a table, and what is decoded of each. -/
lemma exists_steps {entries : List (Key × Located Value)}
    (ran : (entries.foldlM (fun record (key, value) =>
      match fields.find? (·.name == key.item) with
      | none => .error ⟨.unknownField key.item (fields.map (·.name)), some key.span⟩
      | some field => within value.span (field.decode value record)) first : Except Fault σ) = .ok last) :
    ∃ steps : List (Field σ × Located Value), (steps.map fun step => (step.1.name, step.2)) =
        entries.map (fun entry => (entry.1.item, entry.2)) ∧ (∀ step ∈ steps, step.1 ∈ fields) ∧
      steps.foldlM (fun record (field, value) => field.decode value record) first = .ok last := by
  induction entries generalizing first with
  | nil =>
    cases ran
    exact ⟨[], rfl, nofun, rfl⟩
  | cons entry entries ih =>
    obtain ⟨key, value⟩ := entry
    obtain ⟨next, decoded, ran⟩ := bind_eq_ok.mp ran
    dsimp only at decoded
    split at decoded
    · cases decoded
    · rename_i field found
      obtain ⟨steps, same, mem, ran⟩ := ih ran
      have name : field.name = key.item := by
        have same := List.find?_some found
        exact beq_iff_eq.mp same
      refine ⟨(field, value) :: steps, ?_, List.forall_mem_cons.mpr ⟨List.mem_of_find?_eq_some found, mem⟩, ?_⟩
      · rw [List.map_cons, List.map_cons, same, name]
      · rw [List.foldlM_cons]
        refine bind_eq_ok.mpr ⟨next, ?_, ran⟩
        cases h : field.decode value first with
        | error fault =>
          rw [h] at decoded
          cases decoded
        | ok next' =>
          rw [h] at decoded
          cases decoded
          exact h

end Steps

/-! ## Sections -/

lemma insertByKey_perm (entry : Key × Located Value) (entries : List (Key × Located Value)) :
    (insertByKey entry entries).Perm (entry :: entries) := by
  induction entries with
  | nil => exact .refl _
  | cons other rest ih =>
    rw [insertByKey]
    split
    · exact .refl _
    · exact (ih.cons other).trans (.swap entry other rest)

lemma sorted_perm (table : Table Value) : (sorted table).Perm table.entries := by
  rw [sorted]
  induction table.entries with
  | nil => exact .refl _
  | cons entry entries ih => exact (insertByKey_perm entry _).trans (ih.cons entry)

/-- What a section has for a field: the entry under its name, or the item at its place. -/
def field? (names : List String) (name : String) : Value → Option (Located Value)
  | .table table => table.get? name
  | .array _ items => (names.zip items).lookup name
  | _ => none

section Sections

variable {shape : Shape} {fields : List (Field σ)} {name expected : String} {decoder : Decoder α} {f : σ → α}
  {default record : σ} {value : Located Value} {table : Table Value}

lemma lookup_sorted (nodup : table.names.Nodup) :
    ((sorted table).map fun entry => (entry.1.item, entry.2)).lookup name = table.get? name := by
  have mem (entry : Key × Located Value) : entry ∈ sorted table ↔ entry ∈ table.entries :=
    (sorted_perm table).mem_iff
  cases found : ((sorted table).map fun entry => (entry.1.item, entry.2)).lookup name with
  | none =>
    rw [List.lookup_eq_none_iff, List.forall_mem_map] at found
    refine (Toml.Table.get?_eq_none_iff.mpr fun given => ?_).symm
    obtain ⟨entry, hentry, rfl⟩ := List.mem_map.mp given
    exact absurd rfl (bne_iff_ne.mp (found entry ((mem entry).mpr hentry)))
  | some value =>
    obtain ⟨before, after, same, _⟩ := List.lookup_eq_some_iff.mp found
    have hmem : (name, value) ∈ (sorted table).map fun entry => (entry.1.item, entry.2) := by
      rw [same]
      exact List.mem_append_right _ List.mem_cons_self
    obtain ⟨⟨key, _⟩, hentry, ⟨⟩⟩ := List.mem_map.mp hmem
    exact (Toml.Table.get?_eq_some nodup ((mem _).mp hentry)).symm

lemma mem_of_lookup_zip {names : List String} {items : List (Located Value)}
    (h : (names.zip items).lookup name = some value) : value ∈ items := by
  obtain ⟨before, after, same, _⟩ := List.lookup_eq_some_iff.mp h
  have mem : (name, value) ∈ names.zip items := by
    rw [same]
    exact List.mem_append_right _ List.mem_cons_self
  exact (List.of_mem_zip mem).2

lemma field?_placed {names : List String} {whole : Value} (sound : whole.Sound shape)
    (given : field? names name whole = some value) : Toml.Placed shape value := by
  unfold field? at given
  split at given
  · exact sound.get? given
  · exact (Toml.Value.sound_array_iff.mp sound value (mem_of_lookup_zip given)).1
  · cases given

/-- A section that is decoded has in each part what its field says, and otherwise what was there by default. -/
theorem sectionDecoder_eq_ok (names : (fields.map (·.name)).Nodup)
    (agrees : ∀ field ∈ fields, field.Agrees name decoder f)
    (sound : value.item.Sound shape) (decoded : sectionDecoder expected fields default value = .ok record) :
    Decodes decoder (f default) (field? (fields.map (·.name)) name value.item) (f record) := by
  unfold sectionDecoder at decoded
  split at decoded
  · rename_i span table
    obtain ⟨steps, same, mem, ran⟩ := exists_steps decoded
    have nodup := sound.nodup
    rw [field?, ← lookup_sorted nodup, ← same]
    refine decodes_of_steps (fun step hstep => agrees _ (mem step hstep)) ?_ ran
    have keys : steps.map (·.1.name) = (sorted table).map (·.1.item) := by
      have keys := congrArg (List.map Prod.fst) same
      rwa [List.map_map, List.map_map] at keys
    rw [keys]
    exact ((sorted_perm table).map _).nodup_iff.mpr nodup
  · rename_i span ofTables items
    have ran : (fields.zip items).foldlM (fun record (field, value) => field.decode value record) default =
        .ok record := by
      generalize (fields.zip items).foldlM (fun record (field, value) => field.decode value record) default =
        result at decoded ⊢
      cases result with
      | error fault => cases decoded
      | ok record' =>
        cases decoded
        rfl
    have pairs : ((fields.zip items).map fun step => (step.1.name, step.2)) = (fields.map (·.name)).zip items := by
      rw [List.zip_map_left]
      rfl
    rw [field?, ← pairs]
    refine decodes_of_steps (fun step hstep => agrees _ (List.of_mem_zip hstep).1) ?_ ran
    have keys : (fields.zip items).map (·.1) = fields.take (min fields.length items.length) := by
      rw [List.zip_eq_zip_take_min]
      exact List.map_fst_zip (by simp)
    have names' := congrArg (List.map (·.name)) keys
    rw [List.map_map] at names'
    change (List.map ((·.name) ∘ Prod.fst) (fields.zip items)).Nodup
    rw [names']
    exact ((List.take_sublist _ _).map _).nodup names
  · cases decoded
  · cases decoded

/-- What a section says in a field, where the section is given. -/
lemma Decodes.field {given : Option (Located Value)} (names : (fields.map (·.name)).Nodup)
    (agrees : ∀ field ∈ fields, field.Agrees name decoder f)
    (sound : ∀ value ∈ given, value.item.Sound shape)
    (decoded : Decodes (sectionDecoder expected fields default) default given record) :
    Decodes decoder (f default) (given.bind fun value => field? (fields.map (·.name)) name value.item)
      (f record) := by
  cases given with
  | none => exact congrArg f decoded
  | some value => exact sectionDecoder_eq_ok names agrees (sound value rfl) decoded

end Sections

/-! ## Drafts -/

/-- The names of the fields of a section. -/
def fieldNames : String → List String
  | "output" => outputFields.map (·.name)
  | "arity" => arityFields.map (·.name)
  | "csharp" => namesFields.map (·.name)
  | _ => []

/-- What a document says in a field of a section. -/
def said? (document : Table Value) (part name : String) : Option (Located Value) :=
  (document.get? part).bind fun value => field? (fieldNames part) name value.item

/-- A draft has in each field what the document says there, or the default. -/
structure Draft.IsSaid (document : Table Value) (draft : Draft) : Prop where
  path : Decodes (Decoder.text "path string") default.output.path (said? document "output" "path") draft.output.path
  indent : Decodes indentDecoder default.output.indent (said? document "output" "indent") draft.output.indent
  braces : Decodes braceDecoder default.output.braces (said? document "output" "brace_style") draft.output.braces
  support : Decodes Decoder.boolean default.output.support (said? document "output" "support") draft.output.support
  min : Decodes Decoder.byte default.arities.min (said? document "arity" "min") draft.min
  max : Decodes Decoder.byte default.arities.max (said? document "arity" "max") draft.max
  namespaceName : Decodes (Decoder.text "a string") default.names.namespaceName (said? document "csharp" "namespace")
    draft.names.namespaceName
  usings : Decodes Decoder.texts default.names.usings (said? document "csharp" "usings") draft.names.usings
  key : Decodes (Decoder.text "a string") default.names.key (said? document "csharp" "key") draft.names.key

section Drafts

variable {shape : Shape} {document : Table Value} {draft : Draft} {name part : String} {decoder : Decoder α}

lemma sound_get? (sound : (Value.table document).Sound shape) :
    ∀ value ∈ document.get? part, value.item.Sound shape :=
  fun _ given => (sound.get? given).sound

/-- What a document says stands where the document stands. -/
lemma said?_placed {value : Located Value} (sound : (Value.table document).Sound shape)
    (given : said? document part name = some value) : Toml.Placed shape value := by
  obtain ⟨whole, section', given⟩ := Option.bind_eq_some_iff.mp given
  exact field?_placed (sound.get? section').sound given

lemma ofTable_output (sound : (Value.table document).Sound shape) (decoded : Draft.ofTable document = .ok draft) :
    Decodes (sectionDecoder "struct OutputConfig" outputFields {}) {} (document.get? "output") draft.output := by
  refine sectionDecoder_eq_ok (f := Draft.output) (by decide) ?_ sound decoded
  simp only [sections, List.forall_mem_cons]
  exact ⟨.own fun _ _ => rfl, .other (by decide) fun _ _ => rfl, .other (by decide) fun _ _ => rfl, nofun⟩

lemma ofTable_arity (sound : (Value.table document).Sound shape) (decoded : Draft.ofTable document = .ok draft) :
    Decodes (sectionDecoder "struct RawArity" arityFields (Arities.default.min, Arities.default.max))
      (Arities.default.min, Arities.default.max) (document.get? "arity") (draft.min, draft.max) := by
  refine sectionDecoder_eq_ok (f := fun draft : Draft => (draft.min, draft.max)) (by decide) ?_ sound decoded
  simp only [sections, List.forall_mem_cons]
  exact ⟨.other (by decide) fun _ _ => rfl, .own fun _ _ => rfl, .other (by decide) fun _ _ => rfl, nofun⟩

lemma ofTable_names (sound : (Value.table document).Sound shape) (decoded : Draft.ofTable document = .ok draft) :
    Decodes (sectionDecoder "struct CsharpConfig" namesFields {}) {} (document.get? "csharp") draft.names := by
  refine sectionDecoder_eq_ok (f := Draft.names) (by decide) ?_ sound decoded
  simp only [sections, List.forall_mem_cons]
  exact ⟨.other (by decide) fun _ _ => rfl, .other (by decide) fun _ _ => rfl, .own fun _ _ => rfl, nofun⟩

lemma decodes_output {f : Output → α} (agrees : ∀ field ∈ outputFields, field.Agrees name decoder f)
    (sound : (Value.table document).Sound shape) (decoded : Draft.ofTable document = .ok draft) :
    Decodes decoder (f {}) (said? document "output" name) (f draft.output) :=
  .field (by decide) agrees (sound_get? sound) (ofTable_output sound decoded)

lemma decodes_arity {f : Nat × Nat → α} (agrees : ∀ field ∈ arityFields, field.Agrees name decoder f)
    (sound : (Value.table document).Sound shape) (decoded : Draft.ofTable document = .ok draft) :
    Decodes decoder (f (Arities.default.min, Arities.default.max)) (said? document "arity" name)
      (f (draft.min, draft.max)) :=
  .field (by decide) agrees (sound_get? sound) (ofTable_arity sound decoded)

lemma decodes_names {f : Names → α} (agrees : ∀ field ∈ namesFields, field.Agrees name decoder f)
    (sound : (Value.table document).Sound shape) (decoded : Draft.ofTable document = .ok draft) :
    Decodes decoder (f {}) (said? document "csharp" name) (f draft.names) :=
  .field (by decide) agrees (sound_get? sound) (ofTable_names sound decoded)

/-- A draft has in each field what the document says there, or the default. -/
theorem Draft.ofTable_eq_ok (sound : (Value.table document).Sound shape)
    (decoded : Draft.ofTable document = .ok draft) : draft.IsSaid document := by
  constructor
  case path =>
    refine decodes_output (f := Output.path) ?_ sound decoded
    simp only [outputFields, List.forall_mem_cons]
    exact ⟨.own fun _ _ => rfl, .other (by decide) fun _ _ => rfl, .other (by decide) fun _ _ => rfl,
      .other (by decide) fun _ _ => rfl, nofun⟩
  case indent =>
    refine decodes_output (f := Output.indent) ?_ sound decoded
    simp only [outputFields, List.forall_mem_cons]
    exact ⟨.other (by decide) fun _ _ => rfl, .own fun _ _ => rfl, .other (by decide) fun _ _ => rfl,
      .other (by decide) fun _ _ => rfl, nofun⟩
  case braces =>
    refine decodes_output (f := Output.braces) ?_ sound decoded
    simp only [outputFields, List.forall_mem_cons]
    exact ⟨.other (by decide) fun _ _ => rfl, .other (by decide) fun _ _ => rfl, .own fun _ _ => rfl,
      .other (by decide) fun _ _ => rfl, nofun⟩
  case support =>
    refine decodes_output (f := Output.support) ?_ sound decoded
    simp only [outputFields, List.forall_mem_cons]
    exact ⟨.other (by decide) fun _ _ => rfl, .other (by decide) fun _ _ => rfl, .other (by decide) fun _ _ => rfl,
      .own fun _ _ => rfl, nofun⟩
  case min =>
    refine decodes_arity (f := Prod.fst) ?_ sound decoded
    simp only [arityFields, List.forall_mem_cons]
    exact ⟨.own fun _ _ => rfl, .other (by decide) fun _ _ => rfl, nofun⟩
  case max =>
    refine decodes_arity (f := Prod.snd) ?_ sound decoded
    simp only [arityFields, List.forall_mem_cons]
    exact ⟨.other (by decide) fun _ _ => rfl, .own fun _ _ => rfl, nofun⟩
  case namespaceName =>
    refine decodes_names (f := Names.namespaceName) ?_ sound decoded
    simp only [namesFields, List.forall_mem_cons]
    exact ⟨.own fun _ _ => rfl, .other (by decide) fun _ _ => rfl, .other (by decide) fun _ _ => rfl, nofun⟩
  case usings =>
    refine decodes_names (f := Names.usings) ?_ sound decoded
    simp only [namesFields, List.forall_mem_cons]
    exact ⟨.other (by decide) fun _ _ => rfl, .own fun _ _ => rfl, .other (by decide) fun _ _ => rfl, nofun⟩
  case key =>
    refine decodes_names (f := Names.key) ?_ sound decoded
    simp only [namesFields, List.forall_mem_cons]
    exact ⟨.other (by decide) fun _ _ => rfl, .other (by decide) fun _ _ => rfl, .own fun _ _ => rfl, nofun⟩

end Drafts

end Polyadic.Manifest
