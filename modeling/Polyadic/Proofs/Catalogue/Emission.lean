import Polyadic.GeneratedFile
import Polyadic.Proofs.Session.Tree

/-!
# The catalogue only emits

Whatever a manifest says, the programs of its files consist of statements and blocks, in scopes or not: they
begin and end no pass and catch no failure (`GeneratedFile.emitsAll_program`).
-/

namespace Polyadic

open Session (Step)

namespace Session

variable {steps steps' : List Step}

lemma Step.emitsAll_iff : Step.EmitsAll steps ↔ ∀ step ∈ steps, step.Emits := by
  induction steps with
  | nil => exact iff_of_true trivial (List.forall_mem_nil _)
  | cons step steps ih => rw [Step.EmitsAll, ih, List.forall_mem_cons]

@[simp] lemma Step.emitsAll_append :
    Step.EmitsAll (steps ++ steps') ↔ Step.EmitsAll steps ∧ Step.EmitsAll steps' := by
  simp only [Step.emitsAll_iff, List.forall_mem_append]

lemma Step.emitsAll_map {α : Type} {items : List α} {f : α → Step} (h : ∀ item, (f item).Emits) :
    Step.EmitsAll (items.map f) :=
  Step.emitsAll_iff.mpr (List.forall_mem_map.mpr fun item _ => h item)

lemma Step.emitsAll_mapIdx {α : Type} {items : List α} {f : Nat → α → Step} (h : ∀ i item, (f i item).Emits) :
    Step.EmitsAll (items.mapIdx f) := by
  rw [Step.emitsAll_iff]
  intro step hstep
  obtain ⟨i, _, rfl⟩ := List.mem_mapIdx.mp hstep
  exact h i _

lemma Step.emitsAll_ite {c : Prop} [Decidable c] (h : Step.EmitsAll steps) :
    Step.EmitsAll (if c then steps else []) := by
  split
  · exact h
  · trivial

end Session

namespace Catalogue

variable {header value : String} {body : List Step}

@[simp] lemma emits_line (template : String) : (line template).Emits :=
  trivial

@[simp] lemma emits_block : (block header body).Emits ↔ Step.EmitsAll body :=
  Iff.rfl

@[simp] lemma emits_readable : (readable header).Emits :=
  ⟨trivial, trivial⟩

@[simp] lemma emits_getter : (getter header value).Emits :=
  ⟨⟨trivial, trivial⟩, trivial⟩

@[simp] lemma emits_infiniteCount : infiniteCount.Emits :=
  ⟨⟨trivial, trivial⟩, trivial⟩

@[simp] lemma emitsAll_domainProperties : Step.EmitsAll (domainProperties value) :=
  ⟨emits_getter, emits_getter, trivial⟩

@[simp] lemma emitsAll_refusedEnumerators : Step.EmitsAll refusedEnumerators :=
  Step.emitsAll_map fun _ => ⟨trivial, trivial⟩

lemma emits_pairInterface (key : CompositeKey) : (pairInterface key).Emits := by
  have components : Step.EmitsAll (key.components.map fun c => readable s!"{c.type} {c.property}") :=
    Step.emitsAll_map fun _ => emits_readable
  simp [pairInterface, components, Step.EmitsAll]

lemma emits_pairStructure (key : CompositeKey) : (pairStructure key).Emits := by
  have components : Step.EmitsAll (key.components.mapIdx fun i c =>
      getter s!"public {c.type} {c.property}" (componentSource key (i + 1))) :=
    Step.emitsAll_mapIdx fun _ _ => emits_getter
  simp [pairStructure, components, Step.EmitsAll]

lemma emits_delegateMapping : delegateMapping.Emits := by
  simp [delegateMapping, Step.EmitsAll]

lemma emits_tupleComparer (key : CompositeKey) : (tupleComparer key).Emits := by
  have lines {f : KeyComponent → String} : Step.EmitsAll (key.components.map fun c => line (f c)) :=
    Step.emitsAll_map fun _ => emits_line _
  have hashes {f : Nat → KeyComponent → String} :
      Step.EmitsAll (key.components.mapIdx fun i c => line (f i c)) :=
    Step.emitsAll_mapIdx fun _ _ => emits_line _
  simp [tupleComparer, lines, hashes, Step.EmitsAll]

lemma emits_dictionaryMapping (key : CompositeKey) : (dictionaryMapping key).Emits := by
  have comparer : Step.EmitsAll (if key.isTuple then [tupleComparer key] else []) :=
    Step.emitsAll_ite ⟨emits_tupleComparer key, trivial⟩
  have members : Step.EmitsAll (if key.isTuple then componentMembers else []) :=
    Step.emitsAll_ite (by simp [componentMembers, Step.EmitsAll])
  simp [dictionaryMapping, comparer, members, Step.EmitsAll, Step.Emits]

lemma emitsAll_lazyFields (stored : String) : Step.EmitsAll (lazyFields stored) := by
  simp [lazyFields, Step.EmitsAll]

lemma emitsAll_lazyConstructors (name stored : String) (extra : List Step) (h : Step.EmitsAll extra) :
    Step.EmitsAll (lazyConstructors name stored extra) := by
  simp [lazyConstructors, Step.EmitsAll, h]

lemma emitsAll_lazyDomain : Step.EmitsAll lazyDomain := by
  simp [lazyDomain, Step.EmitsAll]

lemma emits_lazyMapping : lazyMapping.Emits := by
  have constructors := emitsAll_lazyConstructors "LazyMapping" "TValue" [] trivial
  simp [lazyMapping, emitsAll_lazyFields, constructors, emitsAll_lazyDomain, Step.EmitsAll]

lemma emits_weakLazyMapping : weakLazyMapping.Emits := by
  have constructors := emitsAll_lazyConstructors "WeakLazyMapping" "WeakReference"
    [line "AddToCleanupList(this)"] ⟨emits_line _, trivial⟩
  simp [weakLazyMapping, weakCleanup, emitsAll_lazyFields, constructors, emitsAll_lazyDomain, Step.EmitsAll]

/-- Every declaration only emits. -/
theorem emits_declaration (key : CompositeKey) (declaration : Declaration) : (declaration.step key).Emits := by
  cases declaration with
  | domain => simp [Declaration.step, domainInterface, Step.EmitsAll]
  | pairInterface => exact emits_pairInterface key
  | pairStructure => exact emits_pairStructure key
  | mappingInterface => simp [Declaration.step, mappingInterface, Step.EmitsAll]
  | delegateMapping => exact emits_delegateMapping
  | dictionaryMapping => exact emits_dictionaryMapping key
  | lazyMapping => exact emits_lazyMapping
  | weakLazyMapping => exact emits_weakLazyMapping

lemma emitsAll_program (arities : Arities) (base : String) : Step.EmitsAll (program arities base) := by
  refine Step.emitsAll_map fun arity => ?_
  have declarations (key : CompositeKey) : Step.EmitsAll (Declaration.all.map (·.step key)) :=
    Step.emitsAll_map (emits_declaration key)
  exact declarations (.ofBase arity base)

lemma emits_weakBase : weakBase.Emits := by
  simp [weakBase, containerList, registration, sweepLoop, Step.EmitsAll]

end Catalogue

namespace GeneratedFile

lemma emitsAll_body (manifest : Manifest) (file : GeneratedFile) : Step.EmitsAll (file.body manifest) := by
  cases file with
  | main => exact Catalogue.emitsAll_program _ _
  | support => exact ⟨Catalogue.emits_weakBase, trivial⟩

/-- The program of a file only emits, whatever the manifest says. -/
theorem emitsAll_program (manifest : Manifest) (file : GeneratedFile) :
    Step.EmitsAll (file.program manifest) := by
  refine Session.Step.emitsAll_append.mpr ⟨?_, emitsAll_body manifest file, trivial⟩
  exact Session.Step.emitsAll_map fun _ => Catalogue.emits_line _

end GeneratedFile

end Polyadic
