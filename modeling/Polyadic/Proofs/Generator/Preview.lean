import Polyadic.Generator
import Polyadic.Proofs.Catalogue.Tidy

/-!
# Previewing accepted manifests

The names in a manifest that passed the checks are inert, so the programs of its files are tidy
(`GeneratedFile.tidy_program`) and every file can be rendered. `preview_accepted` says what the files are
like.
-/

namespace Polyadic

open Session (Item Settles Step)
open Template (IsInert isInert)

namespace Manifest

lemma isInert_of_dottedNameFault? {name : String} (h : dottedNameFault? name.toList = none) :
    IsInert name := by
  intro c hc
  obtain letter | rfl := isNameChar_of_dottedNameFault? h c hc
  · rw [isNameChar, Bool.or_eq_true, beq_iff_eq] at letter
    obtain alphanum | rfl := letter
    · exact isInert_of_isAlphanum alphanum
    · decide
  · decide

end Manifest

namespace GeneratedFile

variable {manifest : Manifest}

lemma tidy_body (valid : manifest.IsValid) (file : GeneratedFile) : Step.TidyAll [] (file.body manifest) := by
  cases file with
  | main => exact Catalogue.tidy_program manifest.arities valid.isPlain_key
  | support => exact ⟨Catalogue.tidy_weakBase, trivial⟩

lemma isInert_supportNamespaces : ∀ name ∈ Catalogue.supportNamespaces, IsInert name := by
  simp only [Catalogue.supportNamespaces, List.forall_mem_cons]
  and_intros
  all_goals first | exact .of_chars rfl rfl | exact nofun

lemma isInert_usings (valid : manifest.IsValid) (file : GeneratedFile) :
    ∀ name ∈ file.usings manifest, IsInert name := by
  cases file with
  | main => exact fun name hname => Manifest.isInert_of_dottedNameFault? (valid.usings name hname)
  | support => exact isInert_supportNamespaces

/-- The program of each file of a valid manifest is tidy. -/
theorem tidy_program (valid : manifest.IsValid) (file : GeneratedFile) :
    Step.TidyAll [] (file.program manifest) := by
  refine Step.tidyAll_append.mpr ⟨?directives, ?block, trivial⟩
  case directives =>
    rw [Step.tidyAll_iff, List.forall_mem_map]
    intro name hname
    have inert := isInert_usings valid file name hname
    exact Catalogue.tidy_line.mpr (.of_isInert (.append (.of_chars rfl rfl) inert))
  case block =>
    have inert := Manifest.isInert_of_dottedNameFault? valid.namespaceName
    exact Catalogue.tidy_block.mpr ⟨.of_isInert (.append (.of_chars rfl rfl) inert), tidy_body valid file⟩

/-- The text of the file. -/
def content (manifest : Manifest) (file : GeneratedFile) : String :=
  Item.printAll manifest.options 0 (Step.itemsAll [] (file.program manifest))

lemma items_ne_nil (file : GeneratedFile) : Step.itemsAll [] (file.program manifest) ≠ [] := by
  rw [program, Step.itemsAll_append]
  exact List.append_ne_nil_of_right_ne_nil _ (List.cons_ne_nil _ _)

end GeneratedFile

namespace Generator

variable {manifest : Manifest}

/-- A file as it is rendered. -/
def rendered (manifest : Manifest) (file : GeneratedFile) : RenderedFile :=
  ⟨file.path manifest, file.content manifest⟩

lemma render_eq (valid : manifest.IsValid) (file : GeneratedFile) :
    render manifest file = .ok (rendered manifest file) := by
  obtain ⟨content, succeeds, rfl, _⟩ := Session.render_tidy manifest.options (file.tidy_program valid)
  unfold render
  rw [succeeds]
  rfl

theorem preview_eq (valid : manifest.IsValid) :
    preview manifest = .ok ((GeneratedFile.ofManifest manifest).map (rendered manifest)) := by
  have renders : render manifest = fun file => pure (rendered manifest file) :=
    funext (render_eq valid)
  rw [preview, renders, List.mapM_pure]
  rfl

/-- The preview of an accepted manifest succeeds, and each of its files is free of dollar signs, has balanced
braces and ends with a line feed. -/
theorem preview_accepted {text file : String} (accepted : Manifest.ofText text file = .ok manifest) :
    ∃ files, preview manifest = .ok files ∧ files.map (·.path) = manifest.paths ∧
      ∀ file ∈ files, '$' ∉ file.content.toList ∧ Text.hasBalancedBraces file.content = true ∧
        file.content.toList.getLast? = some '\n' := by
  have valid := Manifest.IsValid.of_ofText accepted
  refine ⟨_, preview_eq valid, List.map_map, ?_⟩
  rw [List.forall_mem_map]
  intro file _
  obtain ⟨content, _, rfl, free, balanced⟩ :=
    Session.render_tidy manifest.options (file.tidy_program valid)
  exact ⟨free, balanced, Item.getLast?_printAll file.items_ne_nil⟩

/-- The longest tuples, and a key base that makes a reserved word at arity one. -/
theorem preview_accepted_refKey :
    ∃ manifest, Manifest.ofText "[arity]\nmax = 7\n[csharp]\nnamespace = \"Lib.Maps\"\nkey = \"ref_\"\n"
        "mapgen.toml" = .ok manifest ∧ manifest.arities.max = 7 ∧ manifest.names.key = "ref_" ∧
      ∃ files, preview manifest = .ok files ∧ files.map (·.path) = ["Mapping.cs", "WeakMapping.cs"] ∧
        ∀ file ∈ files, '$' ∉ file.content.toList ∧ Text.hasBalancedBraces file.content = true ∧
          file.content.toList.getLast? = some '\n' := by
  have accepted : Manifest.ofText
      "[arity]\nmax = 7\n[csharp]\nnamespace = \"Lib.Maps\"\nkey = \"ref_\"\n" "mapgen.toml" =
        .ok { arities := ⟨1, 7, by decide, by decide, by decide⟩,
              names := { namespaceName := "Lib.Maps", key := "ref_" } } := by
    decide +kernel
  obtain ⟨files, succeeds, paths, sound⟩ := preview_accepted accepted
  refine ⟨_, accepted, rfl, rfl, files, succeeds, paths.trans ?_, sound⟩
  decide +kernel

end Generator

end Polyadic
