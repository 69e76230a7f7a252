import Polyadic.GeneratedFile
import Polyadic.Proofs.Disk.Following
import Polyadic.Proofs.Manifest.Accepted

/-!
# Where generated files go

The checks look at the components of the path of the main file, and the support file goes to the parent of
that path. Both files stay below the output directory (`GeneratedFile.stays_inside`), the support file at the
names of the main file but for the last (`names_supportPath`), and so the two never meet
(`GeneratedFile.nodup_names`). The main statement is `paths_inside`.
-/

namespace Polyadic

open Polyadic.Path (isIdle isRooted)

namespace Manifest

variable {output : Output} {path : String}

lemma pathFault?_eq_none (h : pathFault? output = none) :
    output.path ≠ "" ∧ (Path.components output.path).all staysInside = true ∧
      (output.support = true → Path.fileName? output.path ≠ some supportFileName) := by
  unfold pathFault? at h
  split at h
  · cases h
  · rename_i nonempty
    split at h
    · cases h
    · rename_i inside
      split at h
      · cases h
      · rename_i apart
        refine ⟨mt String.isEmpty_iff.mpr nonempty, ?_, fun support same => apart ?_⟩
        · simpa using inside
        · rw [support, same, beq_self_eq_true]
          rfl

lemma staysInside_component {segment : String} :
    staysInside (Path.component segment) = true ↔ segment ≠ ".." := by
  unfold Path.component
  split
  · rename_i dot
    exact iff_of_true rfl (dot ▸ by decide)
  · split
    · rename_i up
      exact iff_of_false Bool.false_ne_true (not_not.mpr up)
    · rename_i down
      exact iff_of_true rfl down

lemma mem_names_iff {segment : String} (named : isIdle segment = false) :
    segment ∈ Path.names path ↔ segment ∈ Path.segments path := by
  rw [Path.names, List.mem_filter, named]
  exact and_iff_left rfl

/-- The components of a path lead down or nowhere when the path is relative and never leads back. -/
lemma staysInside_components : (Path.components path).all staysInside = true ↔
    isRooted path = false ∧ ".." ∉ Path.names path := by
  obtain ⟨first, rest, hsegments⟩ := Path.exists_segments path
  have rooted := Path.isRooted_iff hsegments
  have later : ((rest.filter (!isIdle ·)).map Path.component).all staysInside = true ↔ ".." ∉ rest := by
    rw [List.all_eq_true, List.forall_mem_map]
    simp only [List.mem_filter, staysInside_component]
    constructor
    · exact fun h mem => h ".." ⟨mem, by decide⟩ rfl
    · rintro h segment ⟨mem, _⟩ rfl
      exact h mem
  rw [mem_names_iff (by decide), hsegments, List.mem_cons, not_or, ← Bool.not_eq_true, rooted,
    Path.components, hsegments]
  dsimp only
  split
  · rename_i nonempty
    rw [List.all_cons, Bool.and_eq_true, staysInside_component, later]
    have unrooted : ¬(first = "" ∧ rest ≠ []) := fun h => nonempty h.1
    rw [and_iff_right unrooted, ne_comm]
  · rename_i empty
    rw [not_not] at empty
    subst empty
    split
    · rename_i none
      rw [later, List.isEmpty_iff.mp none]
      simp
    · rename_i some
      rw [List.isEmpty_iff] at some
      exact iff_of_false Bool.false_ne_true fun h => h.1 ⟨rfl, some⟩

end Manifest

namespace GeneratedFile

variable {manifest : Manifest}

/-- The names of the support file are those of the main file but for the last. -/
lemma names_supportPath (manifest : Manifest) : Path.names (support.path manifest) =
    (Path.names manifest.output.path).dropLast ++ [Manifest.supportFileName] := by
  have own : Path.names Manifest.supportFileName = [Manifest.supportFileName] := by decide
  rw [path, Path.names_append _ (by decide), own]
  congr 1
  obtain ⟨absent, none⟩ | ⟨dir, parent, hdir⟩ := Path.parent?_cases manifest.output.path
  · rw [absent, none]
    rfl
  · rw [parent]
    exact hdir.names

lemma isRooted_supportPath (manifest : Manifest) (unrooted : isRooted manifest.output.path = false) :
    isRooted (support.path manifest) = false := by
  rw [path, Path.isRooted_append _ (by decide)]
  obtain ⟨absent, _⟩ | ⟨dir, parent, hdir⟩ := Path.parent?_cases manifest.output.path
  · rw [absent]
    rfl
  · rw [parent]
    exact hdir.rooted.trans unrooted

/-- Both files stay below the output directory. -/
theorem stays_inside (valid : manifest.IsValid) (file : GeneratedFile) :
    isRooted (file.path manifest) = false ∧ ".." ∉ Path.names (file.path manifest) := by
  have inside := Manifest.staysInside_components.mp (Manifest.pathFault?_eq_none valid.path).2.1
  cases file with
  | main => exact inside
  | support =>
    refine ⟨isRooted_supportPath manifest inside.1, ?_⟩
    rw [names_supportPath, List.mem_append, not_or]
    exact ⟨fun mem => inside.2 (List.mem_of_mem_dropLast mem), by decide⟩

/-- The two files go to different places. -/
theorem nodup_names (valid : manifest.IsValid) : (manifest.paths.map Path.names).Nodup := by
  rw [Manifest.paths, ofManifest]
  split
  · rename_i support
    simp only [List.map_cons, List.map_nil, List.nodup_cons, List.mem_singleton, List.not_mem_nil,
      not_false_eq_true, List.nodup_nil, and_true]
    intro same
    rw [names_supportPath] at same
    have apart := (Manifest.pathFault?_eq_none valid.path).2.2 support
    exact apart (Path.fileName?_of_names same (by decide))
  · exact List.nodup_singleton _

end GeneratedFile

namespace Manifest

variable {manifest : Manifest}

/-- All files of an accepted manifest stay below the output directory by their paths alone, at different
places: whatever is on the disk, the place that is made for each of them is the one that its names say. -/
theorem paths_inside {text file : String} (accepted : ofText text file = .ok manifest) :
    (∀ path ∈ manifest.paths, isRooted path = false ∧ ".." ∉ Path.names path) ∧
      (manifest.paths.map Path.names).Nodup ∧
      ∀ (directory : String) (disk disk' : Disk), ∀ path ∈ manifest.paths, ∀ location,
        Disk.createFile (Path.append directory path) disk = .ok location disk' →
        location = Disk.destination (disk.start directory) (Path.segments directory) ++ Path.names path := by
  have valid := IsValid.of_ofText accepted
  have inside : ∀ path ∈ manifest.paths, isRooted path = false ∧ ".." ∉ Path.names path :=
    List.forall_mem_map.mpr fun file _ => file.stays_inside valid
  refine ⟨inside, GeneratedFile.nodup_names valid, fun directory disk disk' path hpath location made => ?_⟩
  obtain ⟨unrooted, down⟩ := inside path hpath
  exact Disk.location_of_place_append unrooted down (Disk.place_of_createFile made)

/-- A disk with an output directory and a directory in it. -/
def outputTree : Disk where
  nodes := [(["work"], .directory), (["work", "out"], .directory), (["work", "out", "src"], .directory)]
  workingDirectory := ["work"]

/-- A path with segments that say nothing. -/
theorem paths_inside_nested :
    ∃ manifest, ofText "[output]\npath = \"./src//Maps.cs\"\n" "mapgen.toml" = .ok manifest ∧
      manifest.paths = ["./src//Maps.cs", "./src/WeakMapping.cs"] ∧
      (∀ path ∈ manifest.paths, isRooted path = false ∧ ".." ∉ Path.names path) ∧
      (manifest.paths.map Path.names).Nodup ∧
      ∃ disk', Disk.createFile (Path.append "out" "./src//Maps.cs") outputTree =
          .ok ["work", "out", "src", "Maps.cs"] disk' ∧
        ["work", "out", "src", "Maps.cs"] =
          Disk.destination (outputTree.start "out") (Path.segments "out") ++ Path.names "./src//Maps.cs" := by
  have accepted : ofText "[output]\npath = \"./src//Maps.cs\"\n" "mapgen.toml" =
      .ok { output := { path := "./src//Maps.cs" } } := by
    decide +kernel
  obtain ⟨disk', made⟩ : ∃ disk', Disk.createFile (Path.append "out" "./src//Maps.cs") outputTree =
      .ok ["work", "out", "src", "Maps.cs"] disk' := ⟨_, by rfl⟩
  obtain ⟨inside, distinct, places⟩ := paths_inside accepted
  refine ⟨_, accepted, by decide +kernel, inside, distinct, disk', made, ?_⟩
  exact places "out" outputTree disk' _ (by decide +kernel) _ made

end Manifest

end Polyadic
