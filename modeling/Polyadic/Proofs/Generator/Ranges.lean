import Polyadic.Proofs.Generator.Preview

/-!
# Ranges in parts

The main file is the print of its directives and of one namespace, and in the namespace stand the declarations of
one arity after the other (`GeneratedFile.content_main`). What is printed for an arity depends on the layout and on
the base of the key, and not on the range (`Catalogue.declarations`), so a range that is cut in two
(`Arities.exists_cut`) gives the same text as its parts one behind the other (`Generator.preview_additive`).
-/

namespace Polyadic

open Session (Item Options Step meaning meaning_of_plain dollar_not_mem_of_isInert)
open Template (IsInert)

/-- A range with two arities can be cut between them. -/
lemma Arities.exists_cut {range : Arities} {b : Nat} (le : range.min ≤ b) (lt : b < range.max) :
    ∃ lower upper : Arities, ofBounds range.min b = .ok lower ∧ ofBounds (b + 1) range.max = .ok upper ∧
      range.toList = lower.toList ++ upper.toList := by
  have one_le := range.one_le_min
  have max_le := range.max_le
  let lower : Arities := ⟨range.min, b, one_le, le, Nat.le_trans (Nat.le_of_lt lt) max_le⟩
  let upper : Arities := ⟨b + 1, range.max, Nat.le_add_left 1 b, lt, max_le⟩
  refine ⟨lower, upper, ofBounds_self lower, ofBounds_self upper, ?_⟩
  have start : b + 1 = range.min + (b - range.min + 1) := by omega
  have size : range.max - range.min + 1 = (b - range.min + 1) + (range.max - (b + 1) + 1) := by omega
  show List.range' range.min (range.max - range.min + 1) =
    List.range' range.min (b - range.min + 1) ++ List.range' (b + 1) (range.max - (b + 1) + 1)
  rw [start, List.range'_append_1, ← start, size]

/-- The declarations of one arity as they stand in a namespace. -/
def Catalogue.declarations (options : Options) (base : String) (arity : Nat) : String :=
  Item.printAll options 1 ((ofKey (.ofBase arity base)).items [])

namespace GeneratedFile

variable {manifest : Manifest}

/-- The main file up to its declarations: the directives and what opens the namespace. -/
def head (manifest : Manifest) : String :=
  String.join (manifest.names.usings.map fun name => manifest.options.line 0 ("using " ++ name ++ ";")) ++
    manifest.options.opening 0 ("namespace " ++ manifest.names.namespaceName)

/-- The main file behind its declarations. -/
def foot (manifest : Manifest) : String :=
  manifest.options.closing 0 ""

lemma printAll_map {α : Type} (options : Options) (depth : Nat) (step : α → Step) (l : List α) :
    Item.printAll options depth (Step.itemsAll [] (l.map step)) =
      String.join (l.map fun a => Item.printAll options depth ((step a).items [])) := by
  induction l with
  | nil => rfl
  | cons a l ih =>
    rw [List.map_cons, Step.itemsAll, Item.printAll_append, ih, List.map_cons, String.join_cons]

lemma printAll_directive (options : Options) {name : String} (inert : IsInert name) :
    Item.printAll options 0 ((Catalogue.line s!"using {name}").items []) =
      options.line 0 ("using " ++ name ++ ";") := by
  have directive : IsInert ("using " ++ name) := .append (.of_chars rfl rfl) inert
  have text : meaning [] s!"using {name}" = "using " ++ name := meaning_of_plain (dollar_not_mem_of_isInert directive)
  rw [Catalogue.line, Step.items, text, Item.printAll_singleton, Item.print]

/-- The main file is its head, the declarations for one arity after the other, and its foot. -/
theorem content_main (valid : manifest.IsValid) : content manifest main =
    head manifest ++ String.join (manifest.arities.toList.map
      (Catalogue.declarations manifest.options manifest.names.key)) ++ foot manifest := by
  have directives : (manifest.names.usings.map fun name =>
      Item.printAll manifest.options 0 ((Catalogue.line s!"using {name}").items [])) =
        manifest.names.usings.map fun name => manifest.options.line 0 ("using " ++ name ++ ";") :=
    List.map_congr_left fun name hname => printAll_directive _ (isInert_usings valid main name hname)
  have inert : IsInert ("namespace " ++ manifest.names.namespaceName) :=
    .append (.of_chars rfl rfl) (Manifest.isInert_of_dottedNameFault? valid.namespaceName)
  have header : meaning [] s!"namespace {manifest.names.namespaceName}" =
      "namespace " ++ manifest.names.namespaceName := meaning_of_plain (dollar_not_mem_of_isInert inert)
  have declared : Item.printAll manifest.options 1 (Step.itemsAll [] (main.body manifest)) =
      String.join (manifest.arities.toList.map (Catalogue.declarations manifest.options manifest.names.key)) :=
    printAll_map manifest.options 1 (fun arity => Catalogue.ofKey (.ofBase arity manifest.names.key)) _
  rw [content, program, Step.itemsAll_append, Item.printAll_append, usings, printAll_map, directives, Step.itemsAll,
    Step.itemsAll, List.append_nil, Catalogue.block, Step.items, Item.printAll_singleton, Item.print, header, declared,
    head, foot]
  simp only [String.append_assoc]

end GeneratedFile

namespace Generator

open GeneratedFile (head foot)

variable {manifest : Manifest}

/-- With another range in the manifest only the declarations in the main file are others. -/
lemma preview_range (valid : manifest.IsValid) (range : Arities) :
    preview { manifest with arities := range } =
      .ok (⟨manifest.output.path, head manifest ++ String.join (range.toList.map
          (Catalogue.declarations manifest.options manifest.names.key)) ++ foot manifest⟩ ::
        (GeneratedFile.ofManifest manifest).tail.map (rendered manifest)) := by
  have valid' : Manifest.IsValid { manifest with arities := range } :=
    ⟨valid.path, valid.namespaceName, valid.usings, valid.key⟩
  have main : rendered { manifest with arities := range } .main = ⟨manifest.output.path, _⟩ :=
    congrArg (RenderedFile.mk manifest.output.path) (GeneratedFile.content_main valid')
  have files : GeneratedFile.ofManifest { manifest with arities := range } = GeneratedFile.ofManifest manifest := rfl
  rw [preview_eq valid', files]
  unfold GeneratedFile.ofManifest
  split
  · rw [List.map_cons, main]
    rfl
  · rw [List.map_cons, main]
    rfl

/-- Cutting the range of an accepted manifest in two cuts the content of its namespace in two and changes nothing
else: before and behind it the main file is the same for the whole range and for both parts, and so are the other
files. The content is put together from the declarations of single arities, which do not depend on the range. -/
theorem preview_additive {text file : String} (accepted : Manifest.ofText text file = .ok manifest) {b : Nat}
    (le : manifest.arities.min ≤ b) (lt : b < manifest.arities.max) :
    let content (range : Arities) : String :=
      String.join (range.toList.map (Catalogue.declarations manifest.options manifest.names.key))
    let main (content : String) : RenderedFile := ⟨manifest.output.path, head manifest ++ content ++ foot manifest⟩
    ∃ lower upper others, Arities.ofBounds manifest.arities.min b = .ok lower ∧
      Arities.ofBounds (b + 1) manifest.arities.max = .ok upper ∧
      preview { manifest with arities := lower } = .ok (main (content lower) :: others) ∧
      preview { manifest with arities := upper } = .ok (main (content upper) :: others) ∧
      preview manifest = .ok (main (content lower ++ content upper) :: others) := by
  intro content main
  have valid := Manifest.IsValid.of_ofText accepted
  obtain ⟨lower, upper, hlower, hupper, cut⟩ := Arities.exists_cut le lt
  have whole : content manifest.arities = content lower ++ content upper := by
    show String.join _ = String.join _ ++ String.join _
    rw [cut, List.map_append, String.join_append]
  refine ⟨lower, upper, _, hlower, hupper, preview_range valid lower, preview_range valid upper, ?_⟩
  rw [← whole]
  exact preview_range valid manifest.arities

/-- A single key, whose parameter is an escaped word, and several keys. -/
theorem preview_additive_refKey :
    ∃ manifest, Manifest.ofText "[csharp]\nkey = \"ref_\"\n" "mapgen.toml" = .ok manifest ∧
      manifest.arities.min ≤ 1 ∧ 1 < manifest.arities.max ∧
      ∃ first rest others, preview { manifest with arities := ⟨1, 1, by decide, by decide, by decide⟩ } =
          .ok (⟨"Mapping.cs", head manifest ++ first ++ foot manifest⟩ :: others) ∧
        preview { manifest with arities := ⟨2, 5, by decide, by decide, by decide⟩ } =
          .ok (⟨"Mapping.cs", head manifest ++ rest ++ foot manifest⟩ :: others) ∧
        preview manifest = .ok (⟨"Mapping.cs", head manifest ++ (first ++ rest) ++ foot manifest⟩ :: others) := by
  have accepted : Manifest.ofText "[csharp]\nkey = \"ref_\"\n" "mapgen.toml" =
      .ok { names := { key := "ref_" } } := by
    decide +kernel
  obtain ⟨lower, upper, others, hlower, hupper, first, rest, whole⟩ :=
    preview_additive accepted (b := 1) (by decide) (by decide)
  cases hlower
  cases hupper
  exact ⟨_, accepted, by decide, by decide, _, _, others, first, rest, whole⟩

end Generator

end Polyadic
