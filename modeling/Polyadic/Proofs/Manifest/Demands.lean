import Polyadic.Proofs.Manifest.Decoding
import Polyadic.Proofs.Manifest.Paths
import Polyadic.Proofs.Toml.Documents

/-!
# What is asked of a manifest

What a text says is judged by demands that are made one after the other (`Draft.demands`). Each of them is
said here of the words of the manifest (`Demand.Met`): names are letters, digits and underscores with dots
between them (`dottedNameFault?_eq_none_iff`), and a path is a list of segments. The defaults meet all of them
(`default_met`). A demand is refused exactly when it is not met (`Demand.check_cases`), and so a text is accepted when
all are met, and otherwise rejected for the first one that is not (`ofText_judged`).
-/

namespace Polyadic.Manifest

open Text (Span)
open Toml (Value Table InText)

/-! ## Names -/

/-- A letter or an underscore, then letters, digits and underscores. -/
def IsName (name : List Char) : Prop :=
  ∃ first rest, name = first :: rest ∧ isNameStart first = true ∧ ∀ c ∈ rest, isNameChar c = true

/-- Names with dots between them, none of them a reserved word. -/
def IsDottedName (name : List Char) : Prop :=
  ∃ segments, segments ≠ [] ∧ name = Text.join '.' segments ∧
    ∀ segment ∈ segments, IsName segment ∧ Naming.isReservedWord segment = false

section Names

variable {name : List Char}

lemma nameFault?_eq_none_iff : nameFault? name = none ↔ IsName name := by
  constructor
  · intro h
    obtain ⟨first, rest, hname, start, all⟩ := nameFault?_eq_none h
    exact ⟨first, rest, hname, start, List.all_eq_true.mp all⟩
  · rintro ⟨first, rest, rfl, start, all⟩
    have rest : rest.all isNameChar = true := List.all_eq_true.mpr all
    rw [nameFault?, start, rest]
    rfl

lemma keyFault?_eq_none_iff :
    keyFault? name = none ↔ IsName name ∧ name.head?.any Char.isUpper = false := by
  rw [← nameFault?_eq_none_iff]
  constructor
  · exact keyFault?_eq_none
  · rintro ⟨plain, lower⟩
    rw [keyFault?, plain]
    dsimp only
    rw [lower]
    rfl

lemma segmentFault?_eq_none_iff :
    segmentFault? name = none ↔ IsName name ∧ Naming.isReservedWord name = false := by
  rw [← nameFault?_eq_none_iff]
  constructor
  · exact segmentFault?_eq_none
  · rintro ⟨plain, unreserved⟩
    obtain ⟨first, rest, rfl, _⟩ := nameFault?_eq_none_iff.mp plain
    rw [segmentFault?, plain]
    dsimp only
    rw [unreserved]
    rfl

lemma IsName.dot_not_mem (h : IsName name) : '.' ∉ name := by
  intro dot
  have char := isNameChar_of_nameFault? (nameFault?_eq_none_iff.mpr h) '.' dot
  exact absurd char (by decide)

lemma dottedNameFault?_eq_none_iff : dottedNameFault? name = none ↔ IsDottedName name := by
  unfold dottedNameFault?
  constructor
  · intro h
    split at h
    · cases h
    · refine ⟨Text.split (· == '.') name, Text.split_ne_nil _ _, (Text.join_split '.' name).symm, ?_⟩
      intro segment hsegment
      exact segmentFault?_eq_none_iff.mp (List.findSome?_eq_none_iff.mp h segment hsegment)
  · rintro ⟨segments, nonempty, rfl, plain⟩
    have pieces : Text.split (· == '.') (Text.join '.' segments) = segments :=
      Text.split_join nonempty fun segment hsegment => (plain segment hsegment).1.dot_not_mem
    rw [pieces, if_neg, List.findSome?_eq_none_iff]
    · exact fun segment hsegment => segmentFault?_eq_none_iff.mpr (plain segment hsegment)
    -- A name without characters has one segment, which has none either.
    · intro empty
      rw [List.isEmpty_iff.mp empty] at pieces
      obtain ⟨⟨_, _, impossible, _⟩, _⟩ := plain [] (pieces ▸ List.mem_singleton_self [])
      cases impossible

instance : Decidable (IsName name) :=
  decidable_of_iff _ nameFault?_eq_none_iff

instance : Decidable (IsDottedName name) :=
  decidable_of_iff _ dottedNameFault?_eq_none_iff

end Names

/-! ## Demands -/

/-- One of the things that are asked of what a text says. -/
inductive Demand where
  | arities
  | pathGiven
  | pathInside
  | pathApart
  | namespaceName
  | usingName (name : String)
  | key
  deriving DecidableEq, Repr

/-- The demands in the order in which they are made. -/
def Draft.demands (draft : Draft) : List Demand :=
  [.arities, .pathGiven, .pathInside, .pathApart, .namespaceName] ++
    draft.names.usings.map Demand.usingName ++ [.key]

/-- The key of the bound that is blamed when the bounds make no range. -/
def Draft.blamedBound (draft : Draft) : String :=
  if 1 ≤ draft.min ∧ draft.min ≤ draft.max then "max" else "min"

/-- What is wrong with bounds that make no range. -/
def Draft.boundFault (draft : Draft) : ArityFault :=
  if draft.min = 0 then .zero
  else if draft.max < draft.min then .inverted draft.min draft.max
  else .tooLarge draft.max

namespace Demand

/-- What the demand asks. -/
def Met (draft : Draft) : Demand → Prop
  | arities => 1 ≤ draft.min ∧ draft.min ≤ draft.max ∧ draft.max ≤ 7
  | pathGiven => draft.output.path ≠ ""
  | pathInside => Path.isRooted draft.output.path = false ∧ ".." ∉ Path.segments draft.output.path
  | pathApart => draft.output.support = true →
      (Path.names draft.output.path).getLast? ≠ some "WeakMapping.cs"
  | namespaceName => IsDottedName draft.names.namespaceName.toList
  | usingName name => IsDottedName name.toList
  | key => IsName draft.names.key.toList ∧ draft.names.key.toList.head?.any Char.isUpper = false

instance (draft : Draft) : (demand : Demand) → Decidable (demand.Met draft)
  | arities => inferInstanceAs (Decidable (_ ∧ _ ∧ _))
  | pathGiven => inferInstanceAs (Decidable (_ ≠ _))
  | pathInside => inferInstanceAs (Decidable (_ ∧ _ ∉ _))
  | pathApart => inferInstanceAs (Decidable (_ = true → _ ≠ _))
  | namespaceName | usingName _ => inferInstanceAs (Decidable (IsDottedName _))
  | key => inferInstanceAs (Decidable (IsName _ ∧ _ = false))

/-- The cause that is given when the demand is not met. -/
def Reports (draft : Draft) : Demand → Rejection → Prop
  | arities, cause => cause = .arity draft.boundFault
  | pathGiven, cause => cause = .path .empty
  | pathInside, cause => cause = .path .outside
  | pathApart, cause => cause = .path .support
  | namespaceName, cause => ∃ fault,
      dottedNameFault? draft.names.namespaceName.toList = some fault ∧
        cause = .name draft.names.namespaceName "namespace in 'csharp'" fault
  | usingName name, cause => ∃ fault,
      dottedNameFault? name.toList = some fault ∧ cause = .name name "using in 'csharp'" fault
  | key, cause => ∃ fault,
      keyFault? draft.names.key.toList = some fault ∧ cause = .name draft.names.key "key in 'csharp'" fault

/-- Where the demand says that the fault stands. -/
def span? (context : Context) (draft : Draft) : Demand → Option Span
  | arities => context.assignedSpan? draft.blamedBound
  | pathGiven | pathInside | pathApart => context.assignedSpan? "path"
  | namespaceName => context.textSpan? draft.names.namespaceName "namespace"
  | usingName name => context.textSpan? name "using"
  | key => context.textSpan? draft.names.key "key"

/-- What happens when the demand is not met. -/
def Raises (context : Context) (draft : Draft) (demand : Demand) (error : Error) : Prop :=
  ∃ cause, demand.Reports draft cause ∧ error = .rejected context.file (demand.span? context draft) cause

/-- The check of a single demand. -/
def check (context : Context) (draft : Draft) : Demand → Except Error Unit
  | arities => (context.arities draft.min draft.max).map fun _ => ()
  | pathGiven =>
    if draft.output.path.isEmpty then context.reject (context.assignedSpan? "path") (.path .empty)
    else .ok ()
  | pathInside =>
    if !(Path.components draft.output.path).all staysInside then
      context.reject (context.assignedSpan? "path") (.path .outside)
    else .ok ()
  | pathApart =>
    if draft.output.support && Path.fileName? draft.output.path == some supportFileName then
      context.reject (context.assignedSpan? "path") (.path .support)
    else .ok ()
  | namespaceName => (context.push "csharp").checkDottedName draft.names.namespaceName "namespace"
  | usingName name => (context.push "csharp").checkDottedName name "using"
  | key => (context.push "csharp").judge keyFault? draft.names.key "key"

end Demand

/-! ## Defaults -/

section Defaults

variable {draft : Draft} {name : String}

/-- A text that says nothing meets all demands. -/
lemma default_met : ∀ demand ∈ ({} : Draft).demands, demand.Met {} := by
  decide +kernel

lemma path_ne_default {demand : Demand} (path : demand ∈ [Demand.pathGiven, .pathInside, .pathApart])
    (unmet : ¬ demand.Met draft) : draft.output.path ≠ default.output.path := by
  intro byDefault
  simp only [List.mem_cons, List.not_mem_nil, or_false] at path
  obtain rfl | rfl | rfl := path
  · rw [Demand.Met, byDefault] at unmet
    exact unmet (default_met .pathGiven (by decide))
  · rw [Demand.Met, byDefault] at unmet
    exact unmet (default_met .pathInside (by decide))
  · rw [Demand.Met, byDefault] at unmet
    exact unmet fun _ => default_met .pathApart (by decide) rfl

lemma namespaceName_ne_default (unmet : ¬ Demand.namespaceName.Met draft) :
    draft.names.namespaceName ≠ default.names.namespaceName := by
  intro byDefault
  rw [Demand.Met, byDefault] at unmet
  exact unmet (default_met .namespaceName (by decide))

lemma using_not_default (unmet : ¬ (Demand.usingName name).Met draft) : name ∉ defaultUsings :=
  fun byDefault => unmet (default_met (.usingName name) (List.mem_append_left _
    (List.mem_append_right _ (List.mem_map_of_mem byDefault))))

lemma key_ne_default (unmet : ¬ Demand.key.Met draft) : draft.names.key ≠ default.names.key := by
  intro byDefault
  rw [Demand.Met, byDefault] at unmet
  exact unmet (default_met .key (by decide))

end Defaults

/-! ## Checks -/

/-- The context in which the text of a file is judged. -/
abbrev Context.ofText (text file : String) : Context where
  source := text
  file := file

section Checks

variable {context : Context} {draft : Draft} {text file : String}

lemma Context.judge_cases (context : Context) (name kind : String) {fault? : List Char → Option NameFault} {Met : Prop}
    (none_iff : fault? name.toList = none ↔ Met) :
    Met ∧ context.judge fault? name kind = .ok () ∨
      ¬ Met ∧ ∃ fault, fault? name.toList = some fault ∧ context.judge fault? name kind =
        .error (.rejected context.file (context.textSpan? name kind) (.name name (context.describe kind) fault)) := by
  rw [← none_iff]
  unfold Context.judge
  cases h : fault? name.toList with
  | none => exact .inl ⟨rfl, rfl⟩
  | some fault => exact .inr ⟨nofun, fault, rfl, rfl⟩

lemma Context.arities_cases (context : Context) (draft : Draft) :
    (∃ range : Arities, range.min = draft.min ∧ range.max = draft.max ∧
      context.arities draft.min draft.max = .ok range) ∨
    ¬ Demand.arities.Met draft ∧ context.arities draft.min draft.max =
      .error (.rejected context.file (context.assignedSpan? draft.blamedBound) (.arity draft.boundFault)) := by
  have limit : tupleLimit = 7 := rfl
  simp only [Context.arities, Arities.ofBounds, Demand.Met, Draft.blamedBound, Draft.boundFault]
  by_cases zero : draft.min = 0
  · refine .inr ⟨by omega, ?_⟩
    rw [dif_pos zero, if_pos zero, if_neg (by omega)]
    rfl
  · by_cases inverted : draft.max < draft.min
    · refine .inr ⟨by omega, ?_⟩
      rw [dif_neg zero, dif_pos inverted, if_neg zero, if_pos inverted, if_neg (by omega)]
      rfl
    · by_cases large : tupleLimit < draft.max
      · refine .inr ⟨by omega, ?_⟩
        rw [dif_neg zero, dif_neg inverted, dif_pos large, if_neg zero, if_neg inverted, if_pos (by omega)]
        rfl
      · refine .inl ⟨⟨draft.min, draft.max, by omega, by omega, by omega⟩, rfl, rfl, ?_⟩
        rw [dif_neg zero, dif_neg inverted, dif_neg large]

/-- A demand is granted when it is met, and otherwise refused with its own cause. -/
lemma Demand.check_cases (demand : Demand) (draft : Draft) (text file : String) :
    demand.Met draft ∧ demand.check (.ofText text file) draft = .ok () ∨
      ¬ demand.Met draft ∧ ∃ error, demand.Raises (.ofText text file) draft error ∧
        demand.check (.ofText text file) draft = .error error := by
  cases demand with
  | arities =>
    obtain ⟨range, hmin, hmax, granted⟩ | ⟨unmet, refused⟩ :=
      Context.arities_cases (.ofText text file) draft
    · refine .inl ⟨?_, by rw [check, granted]; rfl⟩
      rw [Met, ← hmin, ← hmax]
      exact ⟨range.one_le_min, range.min_le_max, range.max_le⟩
    · exact .inr ⟨unmet, _, ⟨_, rfl, rfl⟩, by rw [check, refused]; rfl⟩
  | pathGiven =>
    by_cases empty : draft.output.path.isEmpty = true
    · refine .inr ⟨fun met => met (String.isEmpty_iff.mp empty), _, ⟨_, rfl, rfl⟩, ?_⟩
      rw [check, if_pos empty]
      rfl
    · exact .inl ⟨mt String.isEmpty_iff.mpr empty, by rw [check, if_neg empty]⟩
  | pathInside =>
    have inside : (Path.components draft.output.path).all staysInside = true ↔ pathInside.Met draft := by
      rw [staysInside_components, mem_names_iff (by decide), Met]
    by_cases met : pathInside.Met draft
    · refine .inl ⟨met, ?_⟩
      rw [check, inside.mpr met]
      rfl
    · refine .inr ⟨met, _, ⟨_, rfl, rfl⟩, ?_⟩
      rw [check, Bool.eq_false_of_not_eq_true (mt inside.mp met)]
      rfl
  | pathApart =>
    have apart : (draft.output.support && Path.fileName? draft.output.path == some supportFileName) = true ↔
        ¬ pathApart.Met draft := by
      rw [Bool.and_eq_true, beq_iff_eq, Path.fileName?_eq_some_iff, Met, supportFileName]
      simp
    by_cases met : pathApart.Met draft
    · exact .inl ⟨met, by rw [check, if_neg (fun h => apart.mp h met)]⟩
    · refine .inr ⟨met, _, ⟨_, rfl, rfl⟩, ?_⟩
      rw [check, if_pos (apart.mpr met)]
      rfl
  | namespaceName =>
    obtain ⟨met, granted⟩ | ⟨unmet, fault, some, refused⟩ :=
      ((Context.ofText text file).push "csharp").judge_cases draft.names.namespaceName "namespace"
        dottedNameFault?_eq_none_iff
    · exact .inl ⟨met, granted⟩
    · exact .inr ⟨unmet, _, ⟨_, ⟨fault, some, rfl⟩, rfl⟩, refused⟩
  | usingName name =>
    obtain ⟨met, granted⟩ | ⟨unmet, fault, some, refused⟩ :=
      ((Context.ofText text file).push "csharp").judge_cases name "using" dottedNameFault?_eq_none_iff
    · exact .inl ⟨met, granted⟩
    · exact .inr ⟨unmet, _, ⟨_, ⟨fault, some, rfl⟩, rfl⟩, refused⟩
  | key =>
    obtain ⟨met, granted⟩ | ⟨unmet, fault, some, refused⟩ :=
      ((Context.ofText text file).push "csharp").judge_cases draft.names.key "key" keyFault?_eq_none_iff
    · exact .inl ⟨met, granted⟩
    · exact .inr ⟨unmet, _, ⟨_, ⟨fault, some, rfl⟩, rfl⟩, refused⟩

lemma Demand.check_eq_ok_iff {demand : Demand} :
    demand.check (.ofText text file) draft = .ok () ↔ demand.Met draft := by
  obtain ⟨met, granted⟩ | ⟨unmet, error, _, refused⟩ := demand.check_cases draft text file
  · exact iff_of_true granted met
  · rw [refused]
    exact iff_of_false nofun unmet

lemma Demand.check_eq_error {demand : Demand} {error : Error}
    (h : demand.check (.ofText text file) draft = .error error) :
    ¬ demand.Met draft ∧ demand.Raises (.ofText text file) draft error := by
  obtain ⟨_, granted⟩ | ⟨unmet, _, raised, refused⟩ := demand.check_cases draft text file
  · rw [granted] at h
    cases h
  · rw [refused] at h
    cases h
    exact ⟨unmet, raised⟩

/-- The demands on the path and the names, one after the other. -/
lemma Draft.forM_demands {f : Demand → Except Error Unit} : draft.demands.forM f = (do
    f .arities
    f .pathGiven
    f .pathInside
    f .pathApart
    f .namespaceName
    draft.names.usings.forM fun name => f (.usingName name)
    f .key) := by
  simp only [Draft.demands, List.forM_eq_forM, List.cons_append, List.nil_append, List.forM_cons, List.forM_append,
    List.forM_map, List.forM_nil, bind_pure_unit]

lemma Context.check_eq : (Context.ofText text file).check draft.output draft.names = (do
    Demand.pathGiven.check (.ofText text file) draft
    Demand.pathInside.check (.ofText text file) draft
    Demand.pathApart.check (.ofText text file) draft
    Demand.namespaceName.check (.ofText text file) draft
    draft.names.usings.forM fun name => (Demand.usingName name).check (.ofText text file) draft
    Demand.key.check (.ofText text file) draft) := by
  simp only [Context.check, pathFault?, Demand.check]
  by_cases empty : draft.output.path.isEmpty = true
  · rw [if_pos empty, if_pos empty]
    rfl
  · rw [if_neg empty, if_neg empty]
    by_cases outside : (!(Path.components draft.output.path).all staysInside) = true
    · rw [if_pos outside, if_pos outside]
      rfl
    · rw [if_neg outside, if_neg outside]
      by_cases collides : (draft.output.support &&
          Path.fileName? draft.output.path == some supportFileName) = true
      · rw [if_pos collides, if_pos collides]
        rfl
      · rw [if_neg collides, if_neg collides]
        rfl

/-- A draft is judged demand by demand. -/
lemma Draft.judge_eq : draft.judge (.ofText text file) = (do
    draft.demands.forM (Demand.check (.ofText text file) draft)
    let arities ← (Context.ofText text file).arities draft.min draft.max
    return { output := draft.output, arities, names := draft.names }) := by
  rw [Draft.forM_demands, Draft.judge, Context.check_eq, Demand.check]
  have push : ((Context.ofText text file).push "arity").arities draft.min draft.max =
    (Context.ofText text file).arities draft.min draft.max := rfl
  rw [push]
  cases (Context.ofText text file).arities draft.min draft.max with
  | error error => rfl
  | ok range =>
    simp only [bind_assoc]
    rfl

end Checks

/-! ## Verdicts -/

/-- The demand is the first in their order that is not met. -/
def FirstUnmet (draft : Draft) (demand : Demand) : Prop :=
  ∃ before after, draft.demands = before ++ demand :: after ∧
    (∀ earlier ∈ before, earlier.Met draft) ∧ ¬ demand.Met draft

lemma FirstUnmet.notMet {draft : Draft} {demand : Demand} (h : FirstUnmet draft demand) : ¬ demand.Met draft := by
  obtain ⟨_, _, _, _, notMet⟩ := h
  exact notMet

/-- What a text says when it is a document that describes a manifest. -/
structure Reading (text file : String) (document : Table Value) (draft : Draft) : Prop where
  parsed : Toml.parse? text.toList = some document
  decoded : Draft.ofText text file = .ok draft
  sound : (Value.table document).Sound (.anywhere (InText text.toList))
  said : draft.IsSaid document

section Verdicts

variable {draft : Draft} {text file : String}

lemma Draft.exists_reading (decoded : Draft.ofText text file = .ok draft) :
    ∃ document, Reading text file document draft := by
  have whole := decoded
  unfold Draft.ofText at decoded
  split at decoded
  · cases decoded
  · rename_i document parsed
    split at decoded
    · cases decoded
    · rename_i ofTable
      cases decoded
      have sound := Toml.parse?_sound parsed
      exact ⟨document, parsed, whole, sound, Draft.ofTable_eq_ok sound ofTable⟩

lemma Demand.Reports.unique {demand : Demand} {cause cause' : Rejection} (h : demand.Reports draft cause)
    (h' : demand.Reports draft cause') : cause = cause' := by
  cases demand with
  | arities | pathGiven | pathInside | pathApart => exact h.trans h'.symm
  | namespaceName | usingName | key =>
    obtain ⟨fault, some, rfl⟩ := h
    obtain ⟨fault', some', rfl⟩ := h'
    cases some.symm.trans some'
    rfl

lemma Demand.Raises.unique {demand : Demand} {context : Context} {error error' : Error}
    (h : demand.Raises context draft error) (h' : demand.Raises context draft error') : error = error' := by
  obtain ⟨cause, reported, rfl⟩ := h
  obtain ⟨cause', reported', rfl⟩ := h'
  rw [reported.unique reported']

lemma Draft.judge_eq_ok_iff {manifest : Manifest} : draft.judge (.ofText text file) = .ok manifest ↔
    (∀ demand ∈ draft.demands, demand.Met draft) ∧ manifest.output = draft.output ∧
      manifest.arities.min = draft.min ∧ manifest.arities.max = draft.max ∧ manifest.names = draft.names := by
  have granted : draft.demands.forM (Demand.check (.ofText text file) draft) = .ok () ↔
      ∀ demand ∈ draft.demands, demand.Met draft := by
    simp only [forM_eq_ok, Demand.check_eq_ok_iff]
  rw [Draft.judge_eq, ← granted, bind_eq_ok]
  obtain ⟨range, hmin, hmax, made⟩ | ⟨unmet, refused⟩ :=
    Context.arities_cases (.ofText text file) draft
  · rw [made]
    constructor
    · rintro ⟨⟨⟩, checked, ⟨⟩⟩
      exact ⟨checked, rfl, hmin, hmax, rfl⟩
    · rintro ⟨checked, output, min, max, names⟩
      have same : manifest.arities = range := by
        obtain ⟨_, _, _⟩ := range
        obtain ⟨_, ⟨_, _, _⟩, _⟩ := manifest
        cases min.trans hmin.symm
        cases max.trans hmax.symm
        rfl
      refine ⟨(), checked, ?_⟩
      rw [← output, ← names, ← same]
      rfl
  · constructor
    · rintro ⟨⟨⟩, _, judged⟩
      rw [refused] at judged
      cases judged
    · rintro ⟨checked, _⟩
      exact absurd (granted.mp checked .arities List.mem_cons_self) unmet

lemma Draft.judge_eq_error_iff {error : Error} : draft.judge (.ofText text file) = .error error ↔
    ∃ demand, FirstUnmet draft demand ∧ demand.Raises (.ofText text file) draft error := by
  rw [Draft.judge_eq]
  constructor
  · intro h
    cases checked : draft.demands.forM (Demand.check (.ofText text file) draft) with
    | error error' =>
      rw [checked] at h
      cases h
      obtain ⟨before, demand, after, demands, met, refused⟩ := forM_eq_error.mp checked
      obtain ⟨unmet, raised⟩ := Demand.check_eq_error refused
      exact ⟨demand, ⟨before, after, demands, fun earlier mem => Demand.check_eq_ok_iff.mp (met earlier mem), unmet⟩,
        raised⟩
    -- When all demands are met, the bounds make a range and nothing is left that could fail.
    | ok _ =>
      have met := forM_eq_ok.mp checked .arities List.mem_cons_self
      obtain ⟨range, _, _, made⟩ | ⟨unmet, _⟩ :=
        Context.arities_cases (.ofText text file) draft
      · rw [checked, made] at h
        cases h
      · exact absurd (Demand.check_eq_ok_iff.mp met) unmet
  · rintro ⟨demand, ⟨before, after, demands, met, unmet⟩, raised⟩
    obtain ⟨met', _⟩ | ⟨_, error', raised', refused⟩ := demand.check_cases draft text file
    · exact absurd met' unmet
    · have checked := forM_eq_error.mpr
        ⟨before, demand, after, demands, fun earlier mem => Demand.check_eq_ok_iff.mpr (met earlier mem), refused⟩
      rw [checked, raised.unique raised']
      rfl

/-- A text that says something about a manifest is accepted when all demands are met, and then the manifest is
what its document says, with defaults for the rest; otherwise it is rejected for the first demand that is not met. -/
theorem ofText_judged (said : Draft.ofText text file = .ok draft) :
    (∃ document, Reading text file document draft) ∧
    (∀ manifest, ofText text file = .ok manifest ↔
      (∀ demand ∈ draft.demands, demand.Met draft) ∧ manifest.output = draft.output ∧
        manifest.arities.min = draft.min ∧ manifest.arities.max = draft.max ∧ manifest.names = draft.names) ∧
    ∀ error, ofText text file = .error error ↔
      ∃ demand, FirstUnmet draft demand ∧ demand.Raises (.ofText text file) draft error := by
  have judged : ofText text file = draft.judge (.ofText text file) := by
    rw [ofText, said]
    rfl
  rw [judged]
  exact ⟨draft.exists_reading said, fun _ => Draft.judge_eq_ok_iff, fun _ => Draft.judge_eq_error_iff⟩

/-- Two directives and the key are wrong, and the first directive is blamed. -/
theorem ofText_judged_secondUsing :
    ∃ draft error, Draft.ofText "[csharp]\nusings = [\"System\", \"System..Linq\", \"int\"]\nkey = \"Key\"\n"
        "mapgen.toml" = .ok draft ∧
      ofText "[csharp]\nusings = [\"System\", \"System..Linq\", \"int\"]\nkey = \"Key\"\n" "mapgen.toml" =
        .error error ∧
      FirstUnmet draft (.usingName "System..Linq") ∧
      error = .rejected "mapgen.toml" (some ⟨30, 12⟩)
        (.name "System..Linq" "using in 'csharp'" .emptySegment) := by
  have said : Draft.ofText "[csharp]\nusings = [\"System\", \"System..Linq\", \"int\"]\nkey = \"Key\"\n"
      "mapgen.toml" = .ok { names := { usings := ["System", "System..Linq", "int"], key := "Key" } } := by
    decide +kernel
  have first : FirstUnmet { names := { usings := ["System", "System..Linq", "int"], key := "Key" } }
      (.usingName "System..Linq") := by
    exact ⟨[.arities, .pathGiven, .pathInside, .pathApart, .namespaceName, .usingName "System"],
      [.usingName "int", .key], rfl, by decide +kernel, by decide +kernel⟩
  refine ⟨_, _, said, ((ofText_judged said).2.2 _).mpr ⟨_, first, _, ⟨.emptySegment, ?_, rfl⟩, rfl⟩, first, ?_⟩
  · decide +kernel
  · decide +kernel

end Verdicts

end Polyadic.Manifest
