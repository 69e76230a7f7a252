import Polyadic.Proofs.Disk.Fresh
import Polyadic.Proofs.Generator.Generate

/-!
# Generating into an empty directory

In an empty directory nothing is in the way of the files of a valid manifest, so all that can keep a run from
success is a path of the main file that ends in a slash or a dot, for the checks look through it at the name
before. `generate_succeeds_iff` is the main statement.
-/

namespace Polyadic

open Disk (Location)

namespace Disk

/-- The path leads to a directory with nothing in it. -/
structure IsEmpty (disk : Disk) (path : String) (base : Location) : Prop where
  there : disk.Leads (disk.start path) (Path.segments path) base
  empty : ∀ name rest, disk.get? (base ++ name :: rest) = none

/-- The path can be used: neither it nor one of its names is too long or holds a character that no system
takes. -/
structure IsAllowed (path : String) : Prop where
  check : checkPath path = .ok ()
  fits : ∀ name ∈ Path.names path, name.utf8ByteSize ≤ maxNameLength

instance (path : String) : Decidable (IsAllowed path) :=
  decidable_of_iff
    (checkPath path = .ok () ∧ ∀ name ∈ Path.names path, name.utf8ByteSize ≤ maxNameLength)
    ⟨fun ⟨check, fits⟩ => ⟨check, fits⟩, fun ⟨check, fits⟩ => ⟨check, fits⟩⟩

variable {disk : Disk} {directory path : String} {base : Location}

lemma IsEmpty.get?_below (h : disk.IsEmpty directory base) {below : List String} (some : below ≠ []) :
    disk.get? (base ++ below) = none := by
  obtain ⟨name, rest, rfl⟩ := List.exists_cons_of_ne_nil some
  exact h.empty name rest

/-- Behind an empty directory nothing is in the way. -/
lemma IsEmpty.clear (h : disk.IsEmpty directory base) (unrooted : Path.isRooted path = false)
    (down : ".." ∉ Path.names path) (allowed : IsAllowed (Path.append directory path)) :
    Clear disk base (Path.names path) := by
  refine ⟨down, fun name mem => allowed.fits name ?_, fun front some _ => .inl (h.get?_below some)⟩
  rw [Path.names_append directory unrooted]
  exact List.mem_append_right _ mem

end Disk

namespace Generator

variable {manifest : Manifest} {directory : String} {disk disk' : Disk} {base : Location}

lemma main_mem (manifest : Manifest) : GeneratedFile.main ∈ GeneratedFile.ofManifest manifest := by
  unfold GeneratedFile.ofManifest
  split <;> exact List.mem_cons_self

/-- A run that succeeds has found a name at the end of the path of the main file. -/
lemma endsInName_of_generate (valid : manifest.IsValid) {report : Report}
    (succeeds : generate manifest directory disk = .ok report disk') :
    Path.EndsInName manifest.output.path := by
  obtain ⟨_, written⟩ := (generate_yields valid directory disk).of_ok succeeds
  obtain ⟨place, _⟩ := Disk.find_file_iff.mp (written.found .main (main_mem manifest))
  obtain ⟨_, front, name, _, hsegments, entry, _⟩ := Disk.place_eq_ok.mp place
  refine (Path.endsInName_append directory (GeneratedFile.main.stays_inside valid).1).mp ?_
  have hsegments : Path.segments (Path.append directory (GeneratedFile.main.path manifest)) = _ := hsegments
  rw [Path.EndsInName, hsegments, List.getLast?_concat, Option.any_some, entry.named]
  rfl

lemma names_target (valid : manifest.IsValid) (directory : String) (file : GeneratedFile) :
    Path.names (target manifest directory file) = Path.names directory ++ Path.names (file.path manifest) :=
  Path.names_append directory (file.stays_inside valid).1

lemma start_target (valid : manifest.IsValid) (disk : Disk) (directory : String) (file : GeneratedFile) :
    disk.start (target manifest directory file) = disk.start directory :=
  Disk.start_append disk directory (file.stays_inside valid).1

/-- The main file can be written into an empty directory, behind the directories on the way to it. -/
lemma writeMain_of_empty (valid : manifest.IsValid) (empty : disk.IsEmpty directory base)
    (allowed : Disk.IsAllowed (target manifest directory .main))
    (ends : Path.EndsInName (GeneratedFile.main.path manifest)) {below : List String} {name : String}
    (hnames : Path.names (GeneratedFile.main.path manifest) = below ++ [name]) :
    ∃ disk₁, Disk.Opened disk (disk.start directory) (Path.names directory) base below disk₁ ∧
      writeFile manifest directory .main disk = .ok (stored manifest directory .main)
        (disk₁.set (base ++ (below ++ [name])) (.file (GeneratedFile.main.content manifest).toUTF8)) := by
  obtain ⟨unrooted, down⟩ := GeneratedFile.main.stays_inside valid
  have clear := empty.clear unrooted down allowed
  rw [hnames] at clear
  have free : disk.get? (base ++ (below ++ [name])) ≠ some .directory := by
    rw [empty.get?_below (List.append_ne_nil_of_right_ne_nil below (List.cons_ne_nil name []))]
    nofun
  have start := start_target valid disk directory .main
  obtain ⟨disk₁, opened, written⟩ := Disk.writeFile_below allowed.check
    ((names_target valid directory .main).trans (congrArg _ hnames))
    ((Path.endsInName_append directory unrooted).mpr ends)
    (start ▸ Disk.leads_names.mpr empty.there) clear free (GeneratedFile.main.content manifest).toUTF8
  exact ⟨disk₁, start ▸ opened, writeFile_of_ok valid written⟩

/-- The support file can be written beside the main file. -/
lemma writeSupport_of_empty (valid : manifest.IsValid) (empty : disk.IsEmpty directory base)
    (allowed : Disk.IsAllowed (target manifest directory .support)) {below : List String} {name : String}
    (hnames : Path.names (GeneratedFile.main.path manifest) = below ++ [name])
    (apart : name ≠ Manifest.supportFileName) {disk₁ : Disk}
    (opened : Disk.Opened disk (disk.start directory) (Path.names directory) base below disk₁)
    (content : ByteArray) :
    ∃ disk', writeFile manifest directory .support (disk₁.set (base ++ (below ++ [name])) (.file content)) =
      .ok (stored manifest directory .support) disk' := by
  obtain ⟨unrooted, down⟩ := GeneratedFile.support.stays_inside valid
  have beside : Path.names (GeneratedFile.support.path manifest) = below ++ [Manifest.supportFileName] := by
    have front : (Path.names manifest.output.path).dropLast = below :=
      (congrArg List.dropLast hnames).trans List.dropLast_concat
    rw [GeneratedFile.names_supportPath, front]
  have ends : Path.EndsInName (GeneratedFile.support.path manifest) :=
    (Path.endsInName_append _ (by decide)).mpr (by decide)
  have clear := empty.clear unrooted down allowed
  rw [beside] at clear
  obtain ⟨front, hsegments, named, hfront⟩ := Disk.exists_segments_below
    ((names_target valid directory .support).trans (congrArg _ beside))
    ((Path.endsInName_append directory unrooted).mpr ends)
  rw [← start_target valid disk directory .support] at opened
  obtain ⟨_, place⟩ := opened.place allowed.check hsegments named hfront clear
  have free (name : String) : disk₁.get? (base ++ (below ++ [name])) = none := by
    rw [opened.behind, empty.get?_below (List.append_ne_nil_of_right_ne_nil below (List.cons_ne_nil name []))]
  have nonempty : base ++ (below ++ [name]) ≠ [] :=
    List.append_ne_nil_of_right_ne_nil base (List.append_ne_nil_of_right_ne_nil below (List.cons_ne_nil name []))
  have place' : (disk₁.set (base ++ (below ++ [name])) (.file content)).place
      (target manifest directory .support) _ = .ok (base ++ (below ++ [Manifest.supportFileName])) :=
    Disk.place_mono (by rfl) (Disk.directory_of_set nonempty (by rw [free]; nofun) content) place
  refine ⟨_, writeFile_of_place valid place' ?_⟩
  have other : base ++ (below ++ [Manifest.supportFileName]) ≠ base ++ (below ++ [name]) := fun same =>
    apart (List.singleton_inj.mp (List.append_cancel_left (List.append_cancel_left same))).symm
  rw [Disk.get?_set nonempty, if_neg other, free]
  nofun

/-- In an empty directory the main file can be written, and the support file beside it. -/
lemma generate_of_endsInName (valid : manifest.IsValid) (empty : disk.IsEmpty directory base)
    (allowed : ∀ path ∈ manifest.paths, Disk.IsAllowed (Path.append directory path))
    (ends : Path.EndsInName manifest.output.path) :
    ∃ report disk', generate manifest directory disk = .ok report disk' := by
  obtain ⟨front, name, _, _, hnames⟩ := Path.exists_segments_concat ends
  have allowed (file : GeneratedFile) (h : file ∈ GeneratedFile.ofManifest manifest) :
      Disk.IsAllowed (target manifest directory file) :=
    allowed _ (List.mem_map_of_mem h)
  obtain ⟨disk₁, opened, main⟩ := writeMain_of_empty valid empty (allowed .main (main_mem manifest)) ends hnames
  unfold generate
  cases hsupport : manifest.output.support with
  | false =>
    have files : GeneratedFile.ofManifest manifest = [.main] := by
      rw [GeneratedFile.ofManifest, hsupport]
      rfl
    rw [files]
    exact ⟨_, _, Session.bind_of_ok (mapM_cons_of_ok main rfl)⟩
  | true =>
    have files : GeneratedFile.ofManifest manifest = [.main, .support] := by
      rw [GeneratedFile.ofManifest, hsupport]
      rfl
    have apart : name ≠ Manifest.supportFileName := by
      rintro rfl
      exact (Manifest.pathFault?_eq_none valid.path).2.2 hsupport (Path.fileName?_of_names hnames (by decide))
    obtain ⟨disk', support⟩ := writeSupport_of_empty valid empty
      (allowed .support (files ▸ List.mem_cons_of_mem _ List.mem_cons_self)) hnames apart opened
      (GeneratedFile.main.content manifest).toUTF8
    rw [files]
    exact ⟨_, _, Session.bind_of_ok (mapM_cons_of_ok main (mapM_cons_of_ok support rfl))⟩

/-- In an empty directory, with paths that the system takes, a run succeeds when the path of the main file
ends in a name, and not when there is a slash or a dot at its end. -/
theorem generate_succeeds_iff {text file : String} (accepted : Manifest.ofText text file = .ok manifest)
    (empty : disk.IsEmpty directory base)
    (allowed : ∀ path ∈ manifest.paths, Disk.IsAllowed (Path.append directory path)) :
    (∃ report disk', generate manifest directory disk = .ok report disk') ↔
      Path.EndsInName manifest.output.path := by
  have valid := Manifest.IsValid.of_ofText accepted
  constructor
  · rintro ⟨report, disk', succeeds⟩
    exact endsInName_of_generate valid succeeds
  · exact generate_of_endsInName valid empty allowed

/-- A disk with an empty output directory. -/
def emptyOutput : Disk where
  nodes := [(["work"], .directory), (["work", "out"], .directory)]
  workingDirectory := ["work"]

lemma isEmpty_emptyOutput : emptyOutput.IsEmpty "out" ["work", "out"] := by
  refine ⟨by rfl, fun name rest => ?_⟩
  rfl

/-- Directories that are missing on the way do not matter. -/
theorem generate_succeeds_nested :
    ∃ manifest, Manifest.ofText "[output]\npath = \"src/./Maps.cs\"\n" "mapgen.toml" = .ok manifest ∧
      emptyOutput.IsEmpty "out" ["work", "out"] ∧
      (∀ path ∈ manifest.paths, Disk.IsAllowed (Path.append "out" path)) ∧
      Path.EndsInName manifest.output.path ∧
      ∃ report disk', generate manifest "out" emptyOutput = .ok report disk' := by
  have accepted : Manifest.ofText "[output]\npath = \"src/./Maps.cs\"\n" "mapgen.toml" =
      .ok { output := { path := "src/./Maps.cs" } } := by
    decide +kernel
  have allowed : ∀ path ∈ ["src/./Maps.cs", "src/WeakMapping.cs"], Disk.IsAllowed (Path.append "out" path) := by
    decide +kernel
  have ends : Path.EndsInName "src/./Maps.cs" := by decide +kernel
  exact ⟨_, accepted, isEmpty_emptyOutput, allowed, ends,
    (generate_succeeds_iff accepted isEmpty_emptyOutput allowed).mpr ends⟩

/-- A path that is accepted for the name in it fails for the slash behind it. -/
theorem generate_fails_slash :
    ∃ manifest, Manifest.ofText "[output]\npath = \"Mapping.cs/\"\nsupport = false\n[arity]\nmax = 1\n"
        "mapgen.toml" = .ok manifest ∧
      emptyOutput.IsEmpty "out" ["work", "out"] ∧
      (∀ path ∈ manifest.paths, Disk.IsAllowed (Path.append "out" path)) ∧
      ∃ failure disk', generate manifest "out" emptyOutput = .error failure disk' := by
  have accepted : Manifest.ofText
      "[output]\npath = \"Mapping.cs/\"\nsupport = false\n[arity]\nmax = 1\n" "mapgen.toml" =
        .ok { output := { path := "Mapping.cs/", support := false },
              arities := ⟨1, 1, by decide, by decide, by decide⟩ } := by
    decide +kernel
  have allowed : ∀ path ∈ ["Mapping.cs/"], Disk.IsAllowed (Path.append "out" path) := by
    decide +kernel
  refine ⟨_, accepted, isEmpty_emptyOutput, allowed, ?_⟩
  generalize hmanifest : Manifest.mk _ _ _ = manifest at accepted ⊢
  cases h : generate manifest "out" emptyOutput with
  | ok report disk' =>
    have ends := endsInName_of_generate (.of_ofText accepted) h
    exact absurd ends (by rw [← hmanifest]; decide +kernel)
  | error failure disk' => exact ⟨failure, disk', rfl⟩

end Generator

end Polyadic
