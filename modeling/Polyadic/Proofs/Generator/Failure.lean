import Polyadic.Proofs.Catalogue.Emission
import Polyadic.Proofs.Generator.Generate

/-!
# Runs that fail

A run stops at the first file that fails. Whatever the manifest says, its programs only emit, so a pass that
was begun fails when what it emits does not fit, and leaves nothing of its file then (`PassFails`); and the
support file fits whenever the main file does (`fits_support`), so no pass takes away what an earlier one has
written. `generate_fails` is the main statement.
-/

namespace Polyadic

open Session (Step Resolves)
open Disk (Grows Spares Stores)

namespace GeneratedFile

variable {manifest : Manifest} {file : GeneratedFile}

lemma fitsAll_directives {header : String} {body : List Step} (names : List String) (pending : Bool) :
    Step.FitsAll [] pending
        (names.map (fun name => Catalogue.line s!"using {name}") ++ [Catalogue.block header body]) ↔
      (∀ name ∈ names, Resolves ([], s!"using {name}")) ∧ Resolves ([], header) ∧ Step.FitsAll [] false body := by
  induction names generalizing pending with
  | nil =>
    have last (pending : Bool) : Step.FitsAll [] pending [] := ⟨List.forall_mem_nil _, trivial⟩
    rw [List.map_nil, List.nil_append, Session.Step.fitsAll_cons, Catalogue.block, Session.Step.fits_block,
      and_iff_left (last _), and_iff_right (List.forall_mem_nil _)]
  | cons name names ih =>
    rw [List.map_cons, List.cons_append, Session.Step.fitsAll_cons, Catalogue.line, Session.Step.fits_statement,
      ih, List.forall_mem_cons, and_assoc]

/-- Where the main file fits, the support file does, for all that the manifest says in it is the namespace. -/
lemma fits_support (h : Step.FitsAll [] false (main.program manifest)) :
    Step.FitsAll [] false (support.program manifest) := by
  obtain ⟨_, header, _⟩ := (fitsAll_directives _ false).mp h
  have body : Step.TidyAll [] (support.body manifest) := ⟨Catalogue.tidy_weakBase, trivial⟩
  refine (fitsAll_directives _ false).mpr ⟨fun name hname => ?_, header, body.areSettled.fits false⟩
  exact (Session.Settles.of_isInert (.append (.of_chars rfl rfl) (isInert_supportNamespaces name hname))).resolves

end GeneratedFile

namespace Generator

variable {manifest : Manifest} {directory path : String} {file : GeneratedFile} {disk disk' : Disk}
  {program : Session.Program} {failure : Failure}

namespace PassFails

lemma path_eq (h : PassFails path program disk failure disk') : failure.path = path := by
  cases h with
  | create => rfl
  | emit => rfl

lemma grows (h : PassFails path program disk failure disk') (unbegun : failure.stage = .create) :
    Grows disk disk' := by
  cases h with
  | create refused =>
    obtain ⟨e, refused⟩ := refused .empty
    have grown := (Disk.writeFile_yields path .empty disk).of_error refused
    exact grown
  | emit => cases unbegun

lemma find (h : PassFails path program disk failure disk') (begun : failure.stage ≠ .create) :
    disk'.find path = .error .notFound := by
  cases h with
  | create => exact absurd rfl begun
  | emit _ clears => exact clears.find

lemma spares (h : PassFails path program disk failure disk') : Spares (· = disk.named path) disk disk' := by
  by_cases unbegun : failure.stage = .create
  · exact (h.grows unbegun).spares _
  · cases h with
    | create => exact absurd rfl unbegun
    | emit _ clears => exact clears.location_eq ▸ clears.toSpares

lemma stage_of_fits (h : PassFails path program disk failure disk') (fits : Step.FitsAll [] false program) :
    failure.stage = .create := by
  cases h with
  | create => rfl
  | emit misfit => exact absurd fits misfit

end PassFails

lemma render_of_fits (fits : Step.FitsAll [] false (file.program manifest)) :
    render manifest file = .ok (rendered manifest file) := by
  unfold render
  rw [Session.render_eq manifest.options (file.emitsAll_program manifest) fits]
  rfl

/-- A file is written as a whole, or it fails. -/
lemma writeFile_of_emits (manifest : Manifest) (directory : String) (file : GeneratedFile) (disk : Disk) :
    Session.Yields (writeFile manifest directory file) disk
      (fun _ disk' => Step.FitsAll [] false (file.program manifest) ∧
        Stores disk (target manifest directory file) (disk.named (target manifest directory file))
          (file.content manifest).toUTF8 disk')
      (PassFails (target manifest directory file) (file.program manifest) disk) := by
  have pass := runPass_of_emits manifest.options (target manifest directory file)
    (file.emitsAll_program manifest) (by rfl : file.content manifest = _) disk
  refine .bind pass ?_
  rintro lines disk' ⟨fits, written, _⟩
  obtain ⟨place, stores⟩ := (Disk.writeFile_yields _ _ disk).of_ok written
  exact ⟨fits, stores.location_eq ▸ stores⟩

lemma writeFile_of_eq_ok {answer : StoredFile} (h : writeFile manifest directory file disk = .ok answer disk') :
    Step.FitsAll [] false (file.program manifest) ∧
      Stores disk (target manifest directory file) (disk.named (target manifest directory file))
        (file.content manifest).toUTF8 disk' := by
  have written := (writeFile_of_emits manifest directory file disk).of_ok h
  exact written

lemma writeFile_of_eq_error (h : writeFile manifest directory file disk = .error failure disk') :
    PassFails (target manifest directory file) (file.program manifest) disk failure disk' := by
  have failed := (writeFile_of_emits manifest directory file disk).of_error h
  exact failed

/-- Writing files changes nothing but at their own places. -/
lemma mapM_spares {own : Disk.Location → Prop} (files : List GeneratedFile) (disk : Disk)
    (owned : ∀ file ∈ files, own (disk.named (target manifest directory file))) :
    Session.Yields (files.mapM (writeFile manifest directory)) disk (fun _ => Spares own disk)
      (fun _ => Spares own disk) := by
  induction files generalizing disk with
  | nil => exact (Grows.refl disk).spares own
  | cons file files ih =>
    obtain ⟨first, rest⟩ := List.forall_mem_cons.mp owned
    have only : ∀ location, location = disk.named (target manifest directory file) → own location := by
      rintro _ rfl
      exact first
    rw [List.mapM_cons]
    refine .bind ((writeFile_of_emits manifest directory file disk).mono (fun _ _ h => h.2.spares.mono only)
      fun _ _ h => h.spares.mono only) fun _ disk₁ spares => ?_
    have owned' : ∀ file ∈ files, own (disk₁.named (target manifest directory file)) := by
      intro file hfile
      rw [Disk.named_eq spares.workingDirectory]
      exact rest file hfile
    exact .bind ((ih disk₁ owned').mono (fun _ _ h => spares.trans h) fun _ _ h => spares.trans h)
      fun _ _ h => h

/-- A run changes nothing but at the places of its own files. -/
lemma generate_spares (manifest : Manifest) (directory : String) (disk : Disk) :
    Session.Yields (generate manifest directory) disk
      (fun _ => Spares (fun location => ∃ file ∈ GeneratedFile.ofManifest manifest,
        location = disk.named (target manifest directory file)) disk)
      (fun _ => Spares (fun location => ∃ file ∈ GeneratedFile.ofManifest manifest,
        location = disk.named (target manifest directory file)) disk) :=
  .bind (mapM_spares _ disk fun file hfile => ⟨file, hfile, rfl⟩) fun _ _ h => h

/-- A run fails at the main file, or at the support file behind it. -/
lemma generate_eq_error (fails : generate manifest directory disk = .error failure disk') :
    (∃ after, GeneratedFile.ofManifest manifest = .main :: after ∧
        writeFile manifest directory .main disk = .error failure disk') ∨
      GeneratedFile.ofManifest manifest = [.main, .support] ∧ ∃ answer disk₁,
        writeFile manifest directory .main disk = .ok answer disk₁ ∧
          writeFile manifest directory .support disk₁ = .error failure disk' := by
  have stops : (GeneratedFile.ofManifest manifest).mapM (writeFile manifest directory) disk =
      .error failure disk' := by
    cases written : (GeneratedFile.ofManifest manifest).mapM (writeFile manifest directory) disk with
    | ok answers disk₁ =>
      rw [generate, Session.bind_of_ok written] at fails
      cases fails
    | error e disk₁ =>
      rw [generate, Session.bind_of_error written] at fails
      cases fails
      rfl
  have files : ∃ after, GeneratedFile.ofManifest manifest = .main :: after ∧ (after = [] ∨ after = [.support]) := by
    unfold GeneratedFile.ofManifest
    split
    · exact ⟨_, rfl, .inr rfl⟩
    · exact ⟨_, rfl, .inl rfl⟩
  obtain ⟨after, files, tail⟩ := files
  rw [files, List.mapM_cons] at stops
  cases first : writeFile manifest directory .main disk with
  | error e disk₁ =>
    rw [Session.bind_of_error first] at stops
    cases stops
    exact .inl ⟨after, files, rfl⟩
  | ok answer disk₁ =>
    rw [Session.bind_of_ok first] at stops
    obtain rfl | rfl := tail
    · cases stops
    · refine .inr ⟨files, answer, disk₁, rfl, ?_⟩
      rw [List.mapM_cons] at stops
      cases second : writeFile manifest directory .support disk₁ with
      | ok answer' disk₂ =>
        simp only [bind_assoc] at stops
        rw [Session.bind_of_ok second] at stops
        cases stops
      | error e disk₂ =>
        simp only [bind_assoc] at stops
        rw [Session.bind_of_error second] at stops
        cases stops
        rfl

/-- A manifest whose namespace is a placeholder that nothing binds. -/
def openNamespace : Manifest :=
  { upToTwo with names := { namespaceName := "$N$" } }

/-- Where an old main file can be replaced, its pass is begun, and fails at the namespace. -/
lemma generate_openNamespace :
    ∃ failure disk', generate openNamespace "out" staleOutput = .error failure disk' ∧
      failure.path = "out/Mapping.cs" ∧ failure.stage ≠ .create := by
  cases main : writeFile openNamespace "out" .main staleOutput with
  | ok answer disk' =>
    obtain ⟨_, ⟨text, resolved⟩, _⟩ := (GeneratedFile.fitsAll_directives _ false).mp (writeFile_of_eq_ok main).1
    have unbound : Template.resolve [] "namespace $N$" = .error (.unbound "N" "namespace $N$") := by cbv
    cases unbound.symm.trans resolved
  | error failure disk' =>
    have failed := writeFile_of_eq_error main
    refine ⟨failure, disk', Session.bind_of_error (Session.bind_of_error main), failed.path_eq, fun unbegun => ?_⟩
    have place : staleOutput.place "out/Mapping.cs" (Path.segments "out/Mapping.cs") =
        .ok ["work", "out", "Mapping.cs"] := by rfl
    have there : staleOutput.get? ["work", "out", "Mapping.cs"] =
        some (.file "// an old catalogue\n".toUTF8) := by rfl
    have free : staleOutput.get? ["work", "out", "Mapping.cs"] ≠ some .directory := by
      rw [there]
      intro directory
      cases directory
    cases failed with
    | create refused =>
      obtain ⟨e, refused⟩ := refused .empty
      cases (Disk.writeFile_of_place place free .empty).symm.trans refused
    | emit => cases unbegun

/-- A disk on which a directory is in the way of the support file. -/
def occupiedOutput : Disk where
  nodes := [(["work"], .directory), (["work", "out"], .directory), (["work", "out", "WeakMapping.cs"], .directory)]
  workingDirectory := ["work"]

/-- The main file is written there, and the run fails behind it. -/
lemma generate_occupiedOutput (valid : upToTwo.IsValid) :
    ∃ failure disk', generate upToTwo "out" occupiedOutput = .error failure disk' ∧
      failure.path = "out/WeakMapping.cs" := by
  have main := writeFile_of_place valid (by rfl : occupiedOutput.place (target upToTwo "out" .main) _ =
    .ok ["work", "out", "Mapping.cs"]) nofun
  have blocked (content : ByteArray) :
      (occupiedOutput.set ["work", "out", "Mapping.cs"] (.file content)).get? ["work", "out", "WeakMapping.cs"] =
        some .directory := by rfl
  cases support : writeFile upToTwo "out" .support (occupiedOutput.set ["work", "out", "Mapping.cs"]
    (.file (GeneratedFile.main.content upToTwo).toUTF8)) with
  | ok answer disk' =>
    have stores := (writeFile_of_eq_ok support).2
    have there := stores.directories _ (blocked _)
    cases there.symm.trans (Disk.find_file_iff.mp stores.found).2
  | error failure disk' =>
    refine ⟨failure, disk', Session.bind_of_error ?_, (writeFile_of_eq_error support).path_eq⟩
    show [GeneratedFile.main, .support].mapM (writeFile upToTwo "out") occupiedOutput = _
    rw [List.mapM_cons, Session.bind_of_ok main, List.mapM_cons]
    exact Session.bind_of_error (Session.bind_of_error support)

end Generator

end Polyadic
