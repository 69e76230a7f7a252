import Polyadic.Proofs.Disk.Files

/-!
# Giving files up

`Spares` says of two disks that nothing has changed between them but at some locations, new directories apart.
It is what making directories, writing a file (`Stores.spares`) and removing one again (`Clears.toSpares`) have
in common, and it is put together along a sequence (`Spares.trans`). What is left of a file that was made and
removed again is `Clears`: its path leads to nothing.
-/

namespace Polyadic.Disk

open Polyadic.Path (segments)

variable {disk disk' disk'' : Disk} {path : String} {location : Location} {own own' : Location → Prop}

/-- The location that a path names, whatever is there. -/
def named (disk : Disk) (path : String) : Location :=
  destination (disk.start path) (segments path)

lemma named_eq (same : disk'.workingDirectory = disk.workingDirectory) (path : String) :
    disk'.named path = disk.named path := by
  rw [named, named, start_eq same]

/-- Between two disks nothing has changed but at its own locations, and that directories were made where
nothing was. -/
structure Spares (own : Location → Prop) (disk disk' : Disk) : Prop where
  workingDirectory : disk'.workingDirectory = disk.workingDirectory
  directories : ∀ location, disk.get? location = some .directory → disk'.get? location = some .directory
  elsewhere : ∀ location, ¬ own location → disk'.get? location = disk.get? location ∨
    disk.get? location = none ∧ disk'.get? location = some .directory

namespace Spares

lemma mono (h : Spares own disk disk') (more : ∀ location, own location → own' location) :
    Spares own' disk disk' :=
  ⟨h.workingDirectory, h.directories, fun location other => h.elsewhere location (mt (more location) other)⟩

lemma trans (h : Spares own disk disk') (h' : Spares own disk' disk'') : Spares own disk disk'' := by
  refine ⟨h'.workingDirectory.trans h.workingDirectory, fun location there => ?_, fun location other => ?_⟩
  · exact h'.directories location (h.directories location there)
  · obtain same | ⟨free, made⟩ := h.elsewhere location other
    · rw [← same]
      exact h'.elsewhere location other
    · exact .inr ⟨free, h'.directories location made⟩

/-- A file elsewhere stays where it is, and its path leads there. -/
lemma find_file {content : ByteArray} (h : Spares own disk disk') (other : ¬ own location)
    (found : disk.find path = .ok (location, .file content)) :
    disk'.find path = .ok (location, .file content) := by
  obtain ⟨place, there⟩ := find_file_iff.mp found
  refine find_file_iff.mpr ⟨place_mono h.workingDirectory h.directories place, ?_⟩
  obtain same | ⟨free, _⟩ := h.elsewhere location other
  · rw [same, there]
  · cases there.symm.trans free

end Spares

lemma Grows.spares (h : Grows disk disk') (own : Location → Prop) : Spares own disk disk' :=
  ⟨h.workingDirectory, fun _ there => h.of_some there, fun location _ => h.only location⟩

/-- A file is found after directories were made as it was before. -/
lemma Grows.file_iff (h : Grows disk disk') (location : Location) (content : ByteArray) :
    disk'.get? location = some (.file content) ↔ disk.get? location = some (.file content) := by
  refine ⟨fun there => ?_, h.of_some⟩
  obtain same | ⟨_, made⟩ := h.only location
  · rw [← same, there]
  · cases there.symm.trans made

lemma Grows.find_file {content : ByteArray} (h : Grows disk disk')
    (found : disk.find path = .ok (location, .file content)) :
    disk'.find path = .ok (location, .file content) :=
  (h.spares fun _ => False).find_file not_false found

lemma Stores.spares {content : ByteArray} (h : Stores disk path location content disk') :
    Spares (· = location) disk disk' :=
  ⟨h.workingDirectory, h.directories, h.elsewhere⟩

lemma Stores.location_eq {content : ByteArray} (h : Stores disk path location content disk') :
    location = disk.named path := by
  rw [← named_eq h.workingDirectory]
  exact destination_of_place (find_file_iff.mp h.found).1

lemma readBytes_of_found {content : ByteArray} (found : disk.find path = .ok (location, .file content)) :
    disk.readBytes path = .ok content := by
  unfold readBytes
  rw [found]
  rfl

lemma get?_erase (nonempty : location ≠ []) (other : Location) :
    (disk.erase location).get? other = if other = location then none else disk.get? other := by
  unfold get? erase
  dsimp only
  rw [Assoc.lookup_erase]
  by_cases root : other = []
  · rw [if_pos root, if_neg (root ▸ nonempty.symm), if_pos root]
  · rw [if_neg root, if_neg root]

/-- What a file leaves that was made and then removed again: nothing where its path leads, and elsewhere at
most new directories. -/
structure Clears (disk : Disk) (path : String) (location : Location) (disk' : Disk) : Prop
    extends Spares (· = location) disk disk' where
  place : disk'.place path (segments path) = .ok location
  free : disk'.get? location = none

namespace Clears

/-- A file that is removed from where no directory was. -/
lemma erase (place : disk.place path (segments path) = .ok location)
    (other : disk.get? location ≠ some .directory) : Clears disk path location (disk.erase location) := by
  have nonempty := ne_nil_of_place place
  have directories : ∀ location', disk.get? location' = some .directory →
      (disk.erase location).get? location' = some .directory := by
    intro location' there
    have apart : location' ≠ location := by
      rintro rfl
      exact other there
    rw [get?_erase nonempty, if_neg apart, there]
  refine ⟨⟨rfl, directories, fun other' apart => ?_⟩, place_mono (by rfl) directories place, ?_⟩
  · rw [get?_erase nonempty, if_neg apart]
    exact .inl rfl
  · rw [get?_erase nonempty, if_pos rfl]

lemma of_spares (h : Spares (· = location) disk disk') (h' : Clears disk' path location disk'') :
    Clears disk path location disk'' :=
  ⟨h.trans h'.toSpares, h'.place, h'.free⟩

lemma location_eq (h : Clears disk path location disk') : location = disk.named path := by
  rw [← named_eq h.workingDirectory]
  exact destination_of_place h.place

/-- The path leads to nothing. -/
lemma find (h : Clears disk path location disk') : disk'.find path = .error .notFound := by
  obtain ⟨check, front, name, dir, hsegments, entry, rfl⟩ := place_eq_ok.mp h.place
  unfold Disk.find
  rw [check, hsegments]
  show disk'.follow (disk'.start path) (front ++ [name]) = _
  rw [entry.leads.follow, follow, if_neg (by simp [entry.named]), if_neg entry.down,
    if_neg (Nat.not_lt.mpr entry.fits), h.free]

end Clears

/-- Removing a file that is found takes it away. -/
lemma removeFile_of_found {content : ByteArray} (found : disk.find path = .ok (location, .file content)) :
    removeFile path disk = .ok () (disk.erase location) := by
  unfold removeFile
  rw [found]

end Polyadic.Disk
