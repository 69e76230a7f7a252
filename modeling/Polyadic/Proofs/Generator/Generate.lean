import Polyadic.Proofs.Generator.Passes
import Polyadic.Proofs.Generator.Preview
import Polyadic.Proofs.Manifest.Paths

/-!
# Generating accepted manifests

One file of a valid manifest is written as a whole at its place below the directory (`writeFile_yields`), and
what a list of files leaves behind is put together from that (`Written.mapM_yields`): the files go to different
places, so each stays as it was written, and nothing else changes but for new directories. Files that are
there already are written again without a trace (`mapM_of_found`). `generate_eq_preview` says it of a whole
run.
-/

namespace Polyadic.Generator

open Session (Yields)
open Disk (Location Stores Grows)

variable {manifest : Manifest} {directory : String} {disk disk' disk'' : Disk}

/-- Where a file is written. -/
def target (manifest : Manifest) (directory : String) (file : GeneratedFile) : String :=
  Path.append directory (file.path manifest)

/-- Where the path of a file leads. -/
def location (manifest : Manifest) (directory : String) (disk : Disk) (file : GeneratedFile) : Location :=
  Disk.destination (disk.start directory) (Path.segments directory) ++ Path.names (file.path manifest)

/-- A file as it is reported. -/
def stored (manifest : Manifest) (directory : String) (file : GeneratedFile) : StoredFile :=
  ⟨target manifest directory file, (file.content manifest).toList.count '\n'⟩

lemma location_eq (same : disk'.workingDirectory = disk.workingDirectory) (file : GeneratedFile) :
    location manifest directory disk' file = location manifest directory disk file := by
  unfold location Disk.start
  rw [same]

lemma location_of_stores (valid : manifest.IsValid) {file : GeneratedFile} {place : Location}
    {content : ByteArray} (h : Stores disk (target manifest directory file) place content disk') :
    place = location manifest directory disk file := by
  obtain ⟨unrooted, down⟩ := file.stays_inside valid
  rw [← location_eq h.workingDirectory]
  exact Disk.location_of_place_append unrooted down (Disk.find_file_iff.mp h.found).1

/-- A file of a valid manifest is written as a whole at its place, or cannot be made. -/
lemma writeFile_yields (valid : manifest.IsValid) (directory : String) (file : GeneratedFile) (disk : Disk) :
    Yields (writeFile manifest directory file) disk
      (fun answer disk' => answer = stored manifest directory file ∧
        Stores disk (target manifest directory file) (location manifest directory disk file)
          (file.content manifest).toUTF8 disk')
      (fun failure disk' => failure = ⟨.create, target manifest directory file, .write⟩ ∧ Grows disk disk') := by
  have pass := runPass_yields manifest.options (target manifest directory file) (file.tidy_program valid)
    (by rfl : file.content manifest = _) disk
  have write := Disk.writeFile_yields (target manifest directory file) (file.content manifest).toUTF8 disk
  refine .bind (pass.mono (fun _ _ h => h) ?_) ?_
  · rintro failure disk' ⟨rfl, e, refused⟩
    have grown := write.of_error refused
    exact ⟨rfl, grown⟩
  · rintro lines disk' ⟨written, rfl⟩
    obtain ⟨place, stores⟩ := write.of_ok written
    exact ⟨rfl, location_of_stores valid stores ▸ stores⟩

/-- Files of a valid manifest are as they were written: each one is found at its place, and nothing is
different anywhere else but for new directories. -/
structure Written (manifest : Manifest) (directory : String) (files : List GeneratedFile) (disk disk' : Disk) :
    Prop where
  workingDirectory : disk'.workingDirectory = disk.workingDirectory
  found : ∀ file ∈ files, disk'.find (target manifest directory file) =
    .ok (location manifest directory disk file, .file (file.content manifest).toUTF8)
  elsewhere : ∀ other, (∀ file ∈ files, other ≠ location manifest directory disk file) →
    disk'.get? other = disk.get? other ∨ disk.get? other = none ∧ disk'.get? other = some .directory
  directories : ∀ other, disk.get? other = some .directory → disk'.get? other = some .directory

namespace Written

variable {file : GeneratedFile} {files : List GeneratedFile}

lemma nil : Written manifest directory [] disk disk :=
  ⟨rfl, nofun, fun _ _ => .inl rfl, fun _ h => h⟩

/-- A file that is written before others stays as it is if none of them goes to its place. -/
lemma cons (h : Stores disk (target manifest directory file) (location manifest directory disk file)
      (file.content manifest).toUTF8 disk')
    (h' : Written manifest directory files disk' disk'')
    (apart : ∀ other ∈ files, location manifest directory disk file ≠ location manifest directory disk other) :
    Written manifest directory (file :: files) disk disk'' := by
  have same (other : GeneratedFile) : location manifest directory disk' other =
      location manifest directory disk other := location_eq h.workingDirectory other
  have directories : ∀ other, disk.get? other = some .directory → disk''.get? other = some .directory :=
    fun other there => h'.directories other (h.directories other there)
  constructor
  case workingDirectory => exact h'.workingDirectory.trans h.workingDirectory
  case directories => exact directories
  case found =>
    rw [List.forall_mem_cons]
    constructor
    · obtain ⟨place, there⟩ := Disk.find_file_iff.mp h.found
      refine Disk.find_file_iff.mpr ⟨Disk.place_mono h'.workingDirectory h'.directories place, ?_⟩
      obtain keeps | ⟨free, _⟩ := h'.elsewhere _ fun other hother => same other ▸ apart other hother
      · rw [keeps, there]
      · exact absurd (there.symm.trans free) nofun
    · intro other hother
      rw [← same]
      exact h'.found other hother
  case elsewhere =>
    intro other others
    obtain ⟨own, others⟩ := List.forall_mem_cons.mp others
    obtain keeps' | ⟨free, made⟩ := h'.elsewhere other fun file hfile => (same file).symm ▸ others file hfile
    · rw [keeps']
      exact h.elsewhere other own
    · obtain keeps | ⟨free', _⟩ := h.elsewhere other own
      · exact .inr ⟨keeps ▸ free, made⟩
      · exact .inr ⟨free', made⟩

/-- Files that go to different places are all written, or one of them cannot be made. -/
theorem mapM_yields (valid : manifest.IsValid) (directory : String) (files : List GeneratedFile)
    (distinct : (files.map fun file => Path.names (file.path manifest)).Nodup) (disk : Disk) :
    Yields (files.mapM (writeFile manifest directory)) disk
      (fun answers disk' => answers = files.map (stored manifest directory) ∧
        Written manifest directory files disk disk')
      (fun _ _ => True) := by
  induction files generalizing disk with
  | nil => exact ⟨rfl, .nil⟩
  | cons file files ih =>
    obtain ⟨own, distinct⟩ := List.nodup_cons.mp distinct
    rw [List.mapM_cons]
    refine .bind ((writeFile_yields valid directory file disk).mono (fun _ _ h => h) fun _ _ _ => trivial) ?_
    rintro _ disk₁ ⟨rfl, stores⟩
    refine .bind (ih distinct disk₁) ?_
    rintro _ disk₂ ⟨rfl, written⟩
    refine ⟨rfl, cons stores written fun other hother same => own ?_⟩
    exact List.mem_map.mpr ⟨other, hother, (List.append_cancel_left same).symm⟩

end Written

/-- Writing a file of a valid manifest is one write of its content. -/
lemma writeFile_of_ok (valid : manifest.IsValid) {file : GeneratedFile}
    (write : Disk.writeFile (target manifest directory file) (file.content manifest).toUTF8 disk = .ok () disk') :
    writeFile manifest directory file disk = .ok (stored manifest directory file) disk' := by
  have pass := runPass_yields manifest.options (target manifest directory file) (file.tidy_program valid)
    (by rfl : file.content manifest = _) disk
  cases h : runPass manifest.options (target manifest directory file) (file.program manifest) disk with
  | ok lines disk' =>
    obtain ⟨written, rfl⟩ := pass.of_ok h
    cases write.symm.trans written
    exact Session.bind_of_ok h
  | error failure disk' =>
    obtain ⟨_, e, refused⟩ := pass.of_error h
    cases write.symm.trans refused

lemma writeFile_of_place (valid : manifest.IsValid) {file : GeneratedFile} {place : Location}
    (named : disk.place (target manifest directory file) (Path.segments (target manifest directory file)) = .ok place)
    (other : disk.get? place ≠ some .directory) :
    writeFile manifest directory file disk = .ok (stored manifest directory file)
      (disk.set place (.file (file.content manifest).toUTF8)) :=
  writeFile_of_ok valid (Disk.writeFile_of_place named other _)

lemma mapM_cons_of_ok {file : GeneratedFile} {files : List GeneratedFile} {answer : StoredFile}
    {answers : List StoredFile} (first : writeFile manifest directory file disk = .ok answer disk')
    (rest : files.mapM (writeFile manifest directory) disk' = .ok answers disk'') :
    (file :: files).mapM (writeFile manifest directory) disk = .ok (answer :: answers) disk'' := by
  rw [List.mapM_cons, Session.bind_of_ok first, Session.bind_of_ok rest]
  rfl

/-- What is there already is written again without a trace. -/
lemma mapM_of_found (valid : manifest.IsValid) {files : List GeneratedFile}
    (found : ∀ file ∈ files, disk.find (target manifest directory file) =
      .ok (location manifest directory disk file, .file (file.content manifest).toUTF8)) :
    files.mapM (writeFile manifest directory) disk = .ok (files.map (stored manifest directory)) disk := by
  induction files with
  | nil => rfl
  | cons file files ih =>
    obtain ⟨own, others⟩ := List.forall_mem_cons.mp found
    exact mapM_cons_of_ok (writeFile_of_ok valid (Disk.writeFile_of_found own)) (ih others)

/-- What a whole run reports and leaves behind if it succeeds. -/
lemma generate_yields (valid : manifest.IsValid) (directory : String) (disk : Disk) :
    Yields (generate manifest directory) disk
      (fun report disk' =>
        report = ⟨(GeneratedFile.ofManifest manifest).map (stored manifest directory), manifest.arities⟩ ∧
          Written manifest directory (GeneratedFile.ofManifest manifest) disk disk')
      (fun _ _ => True) := by
  have distinct : ((GeneratedFile.ofManifest manifest).map fun file =>
      Path.names (file.path manifest)).Nodup := by
    have nodup := GeneratedFile.nodup_names valid
    rwa [Manifest.paths, List.map_map] at nodup
  refine .bind (Written.mapM_yields valid directory _ distinct disk) ?_
  rintro _ disk' ⟨rfl, written⟩
  exact ⟨rfl, written⟩

/-- A disk with an old main file in the output directory. -/
def staleOutput : Disk where
  nodes := [(["work"], .directory), (["work", "out"], .directory),
    (["work", "out", "Mapping.cs"], .file "// an old catalogue\n".toUTF8)]
  workingDirectory := ["work"]

/-- A manifest that says no more than the largest arity. -/
def upToTwo : Manifest :=
  { arities := ⟨1, 2, Nat.one_pos, by decide, by decide⟩ }

end Polyadic.Generator
