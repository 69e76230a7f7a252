import Polyadic.Proofs.CommandLine.Requests
import Polyadic.Proofs.Disk.Detours

/-!
# Files that are to be kept

A text that is only to be written if nothing is at its path is skipped if something is, and then nothing changes
at all (`TextFile.disk_eq_of_skipped`). Otherwise it is written, behind the directories that are made for it. What
is at the path then is not asked again, so a file to which the path is a detour is replaced all the same
(`TextFile.write_keepsFiles_iff`), also by a command that is to write a manifest file without force
(`run_init_of_isDetour`). The main statement is `keep_keepsFiles_iff`.
-/

namespace Polyadic

open Session (Yields)
open Disk (KeepsFiles)

variable {disk disk' : Disk}

namespace TextFile

variable {path content : String}

/-- A text that is to keep what is there, in one step: it is skipped or written. -/
lemma write_keep (path content : String) (disk : Disk) :
    write ⟨path, content, .keep⟩ disk =
      if disk.contains path then .ok .skipped disk
      else
        match Disk.writeFile path content.toUTF8 disk with
        | .ok () disk' => .ok .written disk'
        | .error e disk' => .error e disk' := by
  show (if IfPresent.keep = .keep && disk.contains path then _ else _ : Disk.Action Outcome) disk = _
  cases disk.contains path with
  | true => rfl
  | false =>
    show EStateM.bind (Disk.writeFile path content.toUTF8) (fun _ => pure Outcome.written) disk = _
    unfold EStateM.bind
    cases Disk.writeFile path content.toUTF8 disk <;> rfl

/-- A text is only skipped where something is at the path, and then nothing changes. -/
lemma disk_eq_of_skipped (skipped : write ⟨path, content, .keep⟩ disk = .ok .skipped disk') : disk' = disk := by
  rw [write_keep] at skipped
  split at skipped
  · cases skipped
    rfl
  · split at skipped <;> cases skipped

/-- A text that is to keep what is there changes a file exactly if its path is a detour to one with other content. -/
theorem write_keepsFiles_iff (path content : String) (disk : Disk) :
    Yields (write ⟨path, content, .keep⟩) disk (fun _ => KeepsFiles disk) (fun _ => KeepsFiles disk) ↔
      ∀ old, disk.IsDetour path old → old = content.toUTF8 := by
  cases there : disk.contains path with
  | true =>
    unfold Yields
    rw [write_keep, if_pos there]
    refine iff_of_true (.refl disk) fun old detour => ?_
    cases there.symm.trans detour.absent
  | false =>
    rw [← Disk.keepsFiles_iff there]
    unfold Yields
    rw [write_keep, if_neg (by simp [there])]
    cases Disk.writeFile path content.toUTF8 disk <;> rfl

end TextFile

namespace CommandLine

variable {arguments : List String} {directory : String}

/-- Writing a manifest file leaves the disk that writing its text leaves. -/
lemma init_yields_iff (kept : Disk → Prop) (directory : String) (force : Bool) (disk : Disk) :
    Yields (init directory force) disk (fun _ => kept) (fun _ => kept) ↔
      Yields (starterFile directory force).write disk (fun _ => kept) (fun _ => kept) := by
  unfold Yields init
  dsimp only
  cases (starterFile directory force).write disk with
  | error e disk' => rfl
  | ok outcome disk' => cases outcome <;> rfl

/-- A command that is to write a manifest file without force replaces the file to which its path is a detour, and
says that it was created. -/
theorem run_init_of_isDetour {old : ByteArray} (asked : Request.ofArguments? arguments = some (.init directory false))
    (detour : disk.IsDetour (Path.append directory "mapgen.toml") old) :
    ∃ disk', run arguments disk = .ok (initSummary (Path.append directory "mapgen.toml")) disk' ∧
      disk'.get? (disk.named (Path.append directory "mapgen.toml")) = some (.file Manifest.starterText.toUTF8) := by
  obtain ⟨disk', written, there⟩ := Disk.writeFile_of_isDetour detour Manifest.starterText.toUTF8
  refine ⟨disk', ?_, there⟩
  have made : (starterFile directory false).write disk = .ok .written disk' := by
    show TextFile.write ⟨Path.append directory "mapgen.toml", Manifest.starterText, .keep⟩ disk = _
    rw [TextFile.write_keep, if_neg (by simp [detour.absent]), written]
  rw [run_init asked]
  unfold init
  dsimp only
  rw [made]
  rfl

/-- A command that is to write a manifest file without force changes a file exactly if the path is a detour to one
with other content. -/
theorem run_init_keepsFiles_iff (asked : Request.ofArguments? arguments = some (.init directory false)) (disk : Disk) :
    Yields (run arguments) disk (fun _ => KeepsFiles disk) (fun _ => KeepsFiles disk) ↔
      ∀ old, disk.IsDetour (Path.append directory "mapgen.toml") old → old = Manifest.starterText.toUTF8 := by
  rw [← TextFile.write_keepsFiles_iff, Yields, run_init asked]
  exact init_yields_iff (KeepsFiles disk) directory false disk

/-- Text that is to be written only where nothing is keeps all files exactly if its path is no detour to a file with
other content, and changes nothing at all if it is skipped. The same is true of a command that is to write a
manifest file without force. In a tree, a path that does not lead back up is never a detour. -/
theorem keep_keepsFiles_iff (disk : Disk) :
    (∀ path content,
      (Yields (TextFile.write ⟨path, content, .keep⟩) disk (fun _ => KeepsFiles disk) (fun _ => KeepsFiles disk) ↔
        ∀ old, disk.IsDetour path old → old = content.toUTF8) ∧
      ∀ disk', TextFile.write ⟨path, content, .keep⟩ disk = .ok .skipped disk' → disk' = disk) ∧
    (∀ arguments directory, Request.ofArguments? arguments = some (.init directory false) →
      (Yields (run arguments) disk (fun _ => KeepsFiles disk) (fun _ => KeepsFiles disk) ↔
        ∀ old, disk.IsDetour (Path.append directory "mapgen.toml") old → old = Manifest.starterText.toUTF8)) ∧
    (disk.IsTree → ∀ path old, disk.IsDetour path old → ".." ∈ Path.segments path) :=
  ⟨fun path content => ⟨TextFile.write_keepsFiles_iff path content disk, fun _ => TextFile.disk_eq_of_skipped⟩,
    fun _ _ asked => run_init_keepsFiles_iff asked disk, fun tree _ _ detour => detour.up tree⟩

/-- A disk with nothing but a manifest file. -/
def started : Disk where
  nodes := [(["work"], .directory), (["work", "mapgen.toml"], .file "x\n".toUTF8)]
  workingDirectory := ["work"]

lemma isDetour_started : started.IsDetour "new/../mapgen.toml" "x\n".toUTF8 := by
  refine ⟨by rfl, ["new", ".."], "mapgen.toml", by decide +kernel, ?_⟩
  exact
    { passable := ⟨.inr (.inr ⟨by decide, .inl (by rfl)⟩), .inr (.inl rfl), trivial⟩
      missing := by rfl
      named := by decide
      down := by decide
      fits := by decide
      there := by rfl }

/-- The manifest file is skipped by its name, and kept by a command that leads past it, with the directories that it
makes. -/
theorem keep_keepsFiles_iff_started :
    (∃ disk', TextFile.write ⟨"mapgen.toml", "", .keep⟩ started = .ok .skipped disk' ∧ disk' = started) ∧
      Request.ofArguments? ["init", "new/../sub"] = some (.init "new/../sub" false) ∧
      Yields (run ["init", "new/../sub"]) started (fun _ => KeepsFiles started) (fun _ => KeepsFiles started) ∧
      started.IsTree ∧ ".." ∈ Path.segments "new/../mapgen.toml" := by
  obtain ⟨writes, runs, up⟩ := keep_keepsFiles_iff started
  have skipped : TextFile.write ⟨"mapgen.toml", "", .keep⟩ started = .ok .skipped started := by
    rw [TextFile.write_keep, if_pos (by rfl)]
  have asked : Request.ofArguments? ["init", "new/../sub"] = some (.init "new/../sub" false) := by
    decide +kernel
  have tree : started.IsTree := by
    decide +kernel
  have straight (old : ByteArray) : ¬ started.IsDetour (Path.append "new/../sub" "mapgen.toml") old := by
    intro detour
    have named : started.named (Path.append "new/../sub" "mapgen.toml") = ["work", "sub", "mapgen.toml"] := by
      decide +kernel
    have there := detour.there
    rw [named] at there
    cases there
  refine ⟨⟨started, skipped, (writes _ _).2 _ skipped⟩, asked, ?_, tree, up tree _ _ isDetour_started⟩
  rw [runs _ _ asked]
  exact fun old detour => absurd detour (straight old)

/-- Behind a directory that is made on the way, the command replaces the manifest file. -/
theorem run_init_started :
    started.IsTree ∧ started.readBytes "mapgen.toml" = .ok "x\n".toUTF8 ∧
      Request.ofArguments? ["init", "new/.."] = some (.init "new/.." false) ∧
      ∃ disk', run ["init", "new/.."] started =
          .ok "Created new/../mapgen.toml\n\nNext: mapgen generate -c new/../mapgen.toml\n" disk' ∧
        disk'.get? ["work", "mapgen.toml"] = some (.file Manifest.starterText.toUTF8) ∧
        ¬ KeepsFiles started disk' := by
  have asked : Request.ofArguments? ["init", "new/.."] = some (.init "new/.." false) := by
    decide +kernel
  have path : Path.append "new/.." "mapgen.toml" = "new/../mapgen.toml" := by
    decide +kernel
  obtain ⟨disk', ran, there⟩ := run_init_of_isDetour asked (path ▸ isDetour_started)
  rw [path] at ran there
  have location : started.named "new/../mapgen.toml" = ["work", "mapgen.toml"] := by
    decide +kernel
  rw [location] at there
  refine ⟨by decide +kernel, by rfl, asked, disk', ran, there, fun keeps => ?_⟩
  have stays := keeps ["work", "mapgen.toml"] "x\n".toUTF8 (by rfl)
  have same := Disk.Node.file.inj (Option.some.inj (there.symm.trans stays))
  exact absurd same (by decide +kernel)

end CommandLine

end Polyadic
