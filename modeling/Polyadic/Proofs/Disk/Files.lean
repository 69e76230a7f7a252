import Polyadic.Proofs.Disk.Directories

/-!
# Writing files

What writing a file leaves behind (`Stores`): the file where its path leads, and elsewhere nothing new but
directories (`writeFile_yields`). A disk that holds the content already is left as it is
(`writeFile_of_found`).
-/

namespace Polyadic.Disk

open Session (Yields)
open Polyadic.Path (segments)

variable {disk disk' : Disk} {path : String} {location : Location} {content : ByteArray}

/-- What writing a file leaves behind: the file where its path leads, and elsewhere at most new directories. -/
structure Stores (disk : Disk) (path : String) (location : Location) (content : ByteArray) (disk' : Disk) :
    Prop where
  workingDirectory : disk'.workingDirectory = disk.workingDirectory
  found : disk'.find path = .ok (location, .file content)
  directories : ∀ location, disk.get? location = some .directory → disk'.get? location = some .directory
  elsewhere : ∀ other, other ≠ location → disk'.get? other = disk.get? other ∨
    disk.get? other = none ∧ disk'.get? other = some .directory

lemma set_set (disk : Disk) (location : Location) (node node' : Node) :
    (disk.set location node).set location node' = disk.set location node' := by
  rw [set, set, Assoc.set_set, set]

lemma set_of_get? {node : Node} (nonempty : location ≠ []) (there : disk.get? location = some node) :
    disk.set location node = disk := by
  rw [get?, if_neg nonempty] at there
  rw [set, Assoc.set_of_lookup there]

/-- A file is made at the place that its path names, unless a directory is there. -/
lemma createFile_yields (path : String) (disk : Disk) :
    Yields (createFile path) disk
      (fun location disk' => disk.place path (segments path) = .ok location ∧
        disk.get? location ≠ some .directory ∧ disk' = disk.set location (.file .empty))
      (fun _ disk' => disk' = disk) := by
  unfold Yields createFile
  cases place : disk.place path (segments path) with
  | error e => rfl
  | ok location =>
    cases there : disk.get? location with
    | none => simp only [there]; exact ⟨trivial, nofun, trivial⟩
    | some node =>
      cases node with
      | directory => simp only [there]
      | file content => simp only [there]; exact ⟨trivial, nofun, trivial⟩

/-- A file that is put where no directory is leaves all directories. -/
lemma directory_of_set (nonempty : location ≠ []) (other : disk.get? location ≠ some .directory)
    (content : ByteArray) (location' : Location) (there : disk.get? location' = some .directory) :
    (disk.set location (.file content)).get? location' = some .directory := by
  have apart : location' ≠ location := by
    rintro rfl
    exact other there
  rw [get?_set nonempty, if_neg apart, there]

/-- A file that is put where nothing or another file was. -/
lemma Stores.set (place : disk.place path (segments path) = .ok location)
    (other : disk.get? location ≠ some .directory) (content : ByteArray) :
    Stores disk path location content (disk.set location (.file content)) := by
  have nonempty := ne_nil_of_place place
  have directories := directory_of_set nonempty other content
  have place' : (disk.set location (.file content)).place path (segments path) = .ok location :=
    place_mono (by rfl) directories place
  refine ⟨rfl, find_file_iff.mpr ⟨place', ?_⟩, directories, fun other' apart => ?_⟩
  · rw [get?_set nonempty, if_pos rfl]
  · rw [get?_set nonempty, if_neg apart]
    exact .inl rfl

/-- Directories that are made before do not matter. -/
lemma Stores.of_grows {disk₀ : Disk} (grown : Grows disk₀ disk) (h : Stores disk path location content disk') :
    Stores disk₀ path location content disk' := by
  refine ⟨h.workingDirectory.trans grown.workingDirectory, h.found,
    fun _ there => h.directories _ (grown.of_some there), fun other apart => ?_⟩
  obtain same | ⟨free, made⟩ := grown.only other
  · rw [← same]
    exact h.elsewhere other apart
  · exact .inr ⟨free, h.directories other made⟩

/-- A whole file is written at the place that its path names, or only directories are made. -/
theorem writeFile_yields (path : String) (content : ByteArray) (disk : Disk) :
    Yields (writeFile path content) disk (fun _ disk' => ∃ location, Stores disk path location content disk')
      (fun _ => Grows disk) := by
  refine .bind (makeParent_yields path disk) fun _ disk₁ grown => ?_
  refine .bind ((createFile_yields path disk₁).mono (fun _ _ h => h) fun _ _ same => same ▸ grown) ?_
  rintro location _ ⟨place, other, rfl⟩
  have stores := (Stores.set place other content).of_grows grown
  rw [← set_set disk₁ location (.file .empty)] at stores
  exact ⟨location, stores⟩

lemma createFile_of_place (place : disk.place path (segments path) = .ok location)
    (other : disk.get? location ≠ some .directory) :
    createFile path disk = .ok location (disk.set location (.file .empty)) := by
  unfold createFile
  rw [place]
  cases there : disk.get? location with
  | none => simp only [there]
  | some node =>
    cases node with
    | directory => exact absurd there other
    | file content => simp only [there]

/-- A file is written once its parent is made. -/
lemma writeFile_of_makeParent {disk₁ : Disk} (parent : makeParent path disk = .ok () disk₁)
    (place : disk₁.place path (segments path) = .ok location) (other : disk₁.get? location ≠ some .directory)
    (content : ByteArray) : writeFile path content disk = .ok () (disk₁.set location (.file content)) := by
  rw [writeFile, Session.bind_of_ok parent, Session.bind_of_ok (createFile_of_place place other)]
  show EStateM.Result.ok () ((disk₁.set location (.file .empty)).set location (.file content)) = _
  rw [set_set]

/-- Where the path names a place already, nothing has to be made but the file. -/
theorem writeFile_of_place (place : disk.place path (segments path) = .ok location)
    (other : disk.get? location ≠ some .directory) (content : ByteArray) :
    writeFile path content disk = .ok () (disk.set location (.file content)) := by
  refine writeFile_of_makeParent ?_ place other content
  unfold makeParent
  cases parent : Path.parent? path with
  | none => rfl
  | some dir =>
    by_cases empty : dir = ""
    · subst empty
      rfl
    · have there := isDirectory_parent place (Path.isParent_of_parent? parent) empty
      exact makeDirectories_of_isDirectory there

/-- Writing what is there already does nothing. -/
theorem writeFile_of_found (found : disk.find path = .ok (location, .file content)) :
    writeFile path content disk = .ok () disk := by
  obtain ⟨place, there⟩ := find_file_iff.mp found
  rw [writeFile_of_place place (by rw [there]; nofun), set_of_get? (ne_nil_of_place place) there]

end Polyadic.Disk
