import Polyadic.Proofs.CommandLine.Requests
import Polyadic.Proofs.Generator.Fresh

/-!
# Checking and dry runs

A manifest file that is there is read in the same way by both commands (`chosenManifest_of_contains`), and what
an accepted one says can be rendered. Each file ends in a line feed, so printing its text as one entry prints all
of it and no more (`previewSummary_eq`). The main statement is `check_agrees`.
-/

namespace Polyadic.CommandLine

variable {config directory : String} {disk disk' : Disk} {manifest : Manifest}

/-! ## What is printed -/

lemma verbatim_of_feed {text : String} (ends : text.toList.getLast? = some '\n') : verbatim text ++ "\n" = text := by
  obtain ⟨front, h⟩ := List.getLast?_eq_some_iff.mp ends
  have cut : verbatim text = String.ofList front := by
    rw [verbatim, h, List.reverse_append, List.reverse_singleton, List.singleton_append]
    simp only [List.reverse_reverse]
  apply String.toList_injective
  rw [cut, String.toList_append, String.toList_ofList, h]
  rfl

lemma printed_nil : printed [] = "" :=
  rfl

lemma printed_cons (line : String) (lines : List String) : printed (line :: lines) = line ++ "\n" ++ printed lines :=
  String.join_cons

lemma printed_append (lines lines' : List String) : printed (lines ++ lines') = printed lines ++ printed lines' := by
  rw [printed, List.map_append, String.join_append, printed, printed]

/-- A list of paths is printed with a line for each. -/
lemma printed_paths (paths : List String) :
    printed (paths.map fun path => s!"  - {path}") = String.join (paths.map fun path => s!"  - {path}\n") := by
  rw [printed, List.map_map]
  rfl

/-- How many files a dry run prints, as it says at its end. -/
def previewCount (files : List Generator.RenderedFile) : String :=
  let plural := if files.length = 1 then "" else "s"
  s!"── Summary ──\n{files.length} file{plural} would be generated\n"

lemma previewSummary_split (files : List Generator.RenderedFile) :
    previewSummary files =
      printed (files.flatMap fun file => [divider file.path, verbatim file.content]) ++ previewCount files := by
  rw [previewSummary, printed_append]
  unfold previewCount
  simp only [printed_cons, printed_nil, String.append_assoc]
  rfl

/-- A dry run prints the whole text of each file behind a line with its path. -/
lemma previewSummary_eq {files : List Generator.RenderedFile}
    (ends : ∀ file ∈ files, file.content.toList.getLast? = some '\n') :
    previewSummary files =
      String.join (files.map fun file => s!"── {file.path} ──\n{file.content}") ++ previewCount files := by
  have each : printed (files.flatMap fun file => [divider file.path, verbatim file.content]) =
      String.join (files.map fun file => s!"── {file.path} ──\n{file.content}") := by
    induction files with
    | nil => rfl
    | cons file files ih =>
      obtain ⟨own, others⟩ := List.forall_mem_cons.mp ends
      have line : divider file.path ++ "\n" ++ file.content = s!"── {file.path} ──\n{file.content}" := by
        simp only [divider, String.append_assoc]
        rfl
      rw [List.flatMap_cons, printed_append, ih others, List.map_cons, String.join_cons, printed_cons,
        printed_cons, verbatim_of_feed own, printed_nil, String.append_empty, line]
  rw [previewSummary_split, each]

/-! ## What is read -/

lemma readText_of_found {path text : String} {location : Disk.Location}
    (found : disk.find path = .ok (location, .file text.toUTF8)) : disk.readText path = .ok text := by
  refine bind_eq_ok.mpr ⟨_, Disk.readBytes_of_found found, ?_⟩
  rw [Session.fromUTF8?_toUTF8]
  rfl

/-- A manifest that is read from a file is valid. -/
lemma isValid_of_ofFile (h : Manifest.ofFile disk config = .ok manifest) : manifest.IsValid := by
  obtain ⟨file, opened, result⟩ := bind_eq_ok.mp h
  cases result
  unfold Manifest.openFile at opened
  cases read : disk.readText config with
  | error e =>
    rw [read] at opened
    cases opened
  | ok text =>
    rw [read] at opened
    obtain ⟨manifest, accepted, same⟩ := bind_eq_ok.mp opened
    cases same
    exact .of_ofText accepted

lemma check_of_ok (read : Manifest.ofFile disk config = .ok manifest) :
    check config disk = .ok (checkSummary config manifest) disk := by
  rw [check, read]

lemma check_of_error {e : Manifest.Error} (read : Manifest.ofFile disk config = .error e) :
    check config disk = .error (.manifest e) disk := by
  rw [check, read]

/-- Without other bounds the manifest of a file that is there is taken as it is. -/
lemma chosenManifest_of_contains {what : Generate} (there : disk.contains what.config = true)
    (min : what.min = none) (max : what.max = none) :
    chosenManifest disk what = (Manifest.ofFile disk what.config).mapError .manifest := by
  unfold chosenManifest manifestOrDefault
  rw [if_pos there]
  cases Manifest.ofFile disk what.config with
  | error e => rfl
  | ok manifest =>
    show ((manifest.arities.replaceBounds what.min what.max).mapError Failure.arity >>= _) = _
    rw [min, max, Arities.replaceBounds, Option.getD_none, Option.getD_none, Arities.ofBounds_self]
    rfl

lemma chosenManifest_of_read (what : Generate) (there : disk.contains what.config = true)
    (read : Manifest.ofFile disk what.config = .ok manifest) (min : what.min = none) (max : what.max = none) :
    chosenManifest disk what = .ok manifest := by
  rw [chosenManifest_of_contains there min max, read]
  rfl

/-- A dry run from an accepted manifest prints the files of its preview. -/
lemma dryRun_of_ok (there : disk.contains config = true) (read : Manifest.ofFile disk config = .ok manifest) :
    generate { config, dryRun := true } disk =
      .ok (previewSummary ((GeneratedFile.ofManifest manifest).map (Generator.rendered manifest))) disk := by
  unfold generate
  rw [chosenManifest_of_read { config, dryRun := true } there read rfl rfl]
  simp only [↓reduceIte, Generator.preview_eq (isValid_of_ofFile read)]

lemma dryRun_of_error {e : Manifest.Error} (there : disk.contains config = true)
    (read : Manifest.ofFile disk config = .error e) :
    generate { config, dryRun := true } disk = .error (.manifest e) disk := by
  have chosen : chosenManifest disk { config, dryRun := true } = .error (.manifest e) := by
    rw [chosenManifest_of_contains there rfl rfl, read]
    rfl
  unfold generate
  rw [chosen]

/-- A run that writes the files from an accepted manifest, if they can be written. -/
lemma generate_of_ok {report : Generator.Report} (there : disk.contains config = true)
    (read : Manifest.ofFile disk config = .ok manifest)
    (written : Generator.generate manifest directory disk = .ok report disk') :
    generate { config, output := directory } disk = .ok (generateSummary manifest report) disk' := by
  unfold generate
  rw [chosenManifest_of_read { config, output := directory } there read rfl rfl]
  simp only [Bool.false_eq_true, ↓reduceIte, written]

/-- A run that writes the files of an accepted manifest leaves them below the output directory. -/
lemma readBytes_of_generate (there : disk.contains config = true) (read : Manifest.ofFile disk config = .ok manifest)
    {text : String} (succeeds : generate { config, output := directory } disk = .ok text disk') :
    ∀ file ∈ (GeneratedFile.ofManifest manifest).map (Generator.rendered manifest),
      disk'.readBytes (Path.append directory file.path) = .ok file.content.toUTF8 := by
  unfold generate at succeeds
  rw [chosenManifest_of_read { config, output := directory } there read rfl rfl] at succeeds
  simp only [Bool.false_eq_true, ↓reduceIte] at succeeds
  split at succeeds
  · cases succeeds
  · rename_i generated
    cases succeeds
    obtain ⟨_, written⟩ := (Generator.generate_yields (isValid_of_ofFile read) directory disk).of_ok generated
    rw [List.forall_mem_map]
    exact fun file mem => Disk.readBytes_of_found (written.found file mem)

/-! ## Both commands -/

/-- The facts that a check prints before it lists the files. -/
def checkedFacts (config : String) (manifest : Manifest) : String :=
  s!"✓ {config} is valid\n\nNamespace: {manifest.names.namespaceName}\n" ++
    s!"Arities: {manifest.arities.text} ({declarationCount} declarations each)\n\nFiles:\n"

lemma checkSummary_eq (config : String) (manifest : Manifest) :
    checkSummary config manifest =
      checkedFacts config manifest ++ String.join (manifest.paths.map fun path => s!"  - {path}\n") := by
  rw [checkSummary, printed_append, printed_paths]
  simp only [printed_cons, printed_nil, checkedFacts, String.append_assoc]
  rfl

/-- Both commands are refused in the same way, or succeed and print what the manifest says. -/
lemma check_dryRun_cases (there : disk.contains config = true) :
    (∃ failure, run (checkArguments config) disk = .error failure disk ∧
        run (dryRunArguments config) disk = .error failure disk) ∨
      ∃ manifest, Manifest.ofFile disk config = .ok manifest ∧
        run (checkArguments config) disk = .ok (checkSummary config manifest) disk ∧
        run (dryRunArguments config) disk =
          .ok (previewSummary ((GeneratedFile.ofManifest manifest).map (Generator.rendered manifest))) disk := by
  have checked := ofArguments?_check config
  have previewed := ofArguments?_dryRun config
  cases named : namesFile config with
  | false =>
    rw [named] at checked previewed
    exact .inl ⟨.arguments, run_of_none checked disk, run_of_none previewed disk⟩
  | true =>
    rw [named] at checked previewed
    rw [run_check checked, run_generate previewed]
    cases read : Manifest.ofFile disk config with
    | error e => exact .inl ⟨.manifest e, check_of_error read, dryRun_of_error there read⟩
    | ok manifest => exact .inr ⟨manifest, rfl, check_of_ok read, dryRun_of_ok there read⟩

/-- For a manifest file that is there, checking it and a dry run from it end with the same exit code, and both
leave the disk as it was. If they succeed, the dry run prints the files under the paths that the check lists, in
the same order, and behind each path the whole text that a run leaves there if it writes the files. -/
theorem check_agrees (there : disk.contains config = true) :
    exitCode (checkArguments config) disk = exitCode (dryRunArguments config) disk ∧
      diskAfter (checkArguments config) disk = disk ∧ diskAfter (dryRunArguments config) disk = disk ∧
      ∀ listed printed disk₁ disk₂, run (checkArguments config) disk = .ok listed disk₁ →
        run (dryRunArguments config) disk = .ok printed disk₂ →
        ∃ manifest files, Manifest.ofFile disk config = .ok manifest ∧ Generator.preview manifest = .ok files ∧
          listed = checkedFacts config manifest ++ String.join (files.map fun file => s!"  - {file.path}\n") ∧
          printed =
            String.join (files.map fun file => s!"── {file.path} ──\n{file.content}") ++ previewCount files ∧
          ∀ arguments directory text disk',
            Request.ofArguments? arguments = some (.generate { config, output := directory }) →
            run arguments disk = .ok text disk' →
            ∀ file ∈ files, disk'.readBytes (Path.append directory file.path) = .ok file.content.toUTF8 := by
  unfold exitCode diskAfter
  obtain ⟨failure, checked, previewed⟩ | ⟨manifest, read, checked, previewed⟩ := check_dryRun_cases there
  · rw [checked, previewed]
    exact ⟨rfl, rfl, rfl, nofun⟩
  · rw [checked, previewed]
    refine ⟨rfl, rfl, rfl, ?_⟩
    rintro _ _ _ _ ⟨⟩ ⟨⟩
    refine ⟨manifest, _, read, Generator.preview_eq (isValid_of_ofFile read), ?_, previewSummary_eq ?_, ?_⟩
    · rw [checkSummary_eq, Manifest.paths, List.map_map, List.map_map]
      rfl
    · rw [List.forall_mem_map]
      exact fun file _ => Session.Item.getLast?_printAll file.items_ne_nil
    · intro arguments directory text disk' asked succeeds
      rw [run_generate asked] at succeeds
      exact readBytes_of_generate there read succeeds

/-- The text of a manifest file that says where the main file goes. -/
def nestedText : String :=
  "[output]\npath = \"src/Maps.cs\"\n"

/-- The manifest that it says. -/
def nested : Manifest :=
  { output := { path := "src/Maps.cs" } }

/-- A disk with this manifest file and an empty output directory. -/
def nestedDisk : Disk where
  nodes := [(["work"], .directory), (["work", "maps.toml"], .file nestedText.toUTF8), (["work", "out"], .directory)]
  workingDirectory := ["work"]

lemma ofFile_nested : Manifest.ofFile nestedDisk "maps.toml" = .ok nested := by
  have read : nestedDisk.readText "maps.toml" = .ok nestedText := readText_of_found (by rfl)
  have accepted : Manifest.ofText nestedText "maps.toml" = .ok nested := by
    decide +kernel
  unfold Manifest.ofFile Manifest.openFile
  rw [read]
  dsimp only
  rw [accepted]
  rfl

lemma contains_nested : nestedDisk.contains "maps.toml" = true := by
  have found : nestedDisk.find "maps.toml" = .ok (["work", "maps.toml"], .file nestedText.toUTF8) := by rfl
  exact Disk.contains_of_find found

/-- The files can be written into the empty directory. -/
lemma generate_nested : ∃ text disk',
    Request.ofArguments? ["generate", "-c", "maps.toml", "-o", "out"] =
        some (.generate { config := "maps.toml", output := "out" }) ∧
      run ["generate", "-c", "maps.toml", "-o", "out"] nestedDisk = .ok text disk' := by
  have asked : Request.ofArguments? ["generate", "-c", "maps.toml", "-o", "out"] =
      some (.generate { config := "maps.toml", output := "out" }) := by
    decide +kernel
  have empty : nestedDisk.IsEmpty "out" ["work", "out"] := ⟨by rfl, fun name rest => by rfl⟩
  have allowed : ∀ path ∈ nested.paths, Disk.IsAllowed (Path.append "out" path) := by
    decide +kernel
  have ends : Path.EndsInName nested.output.path := by
    decide +kernel
  obtain ⟨report, disk', written⟩ :=
    Generator.generate_of_endsInName (isValid_of_ofFile ofFile_nested) empty allowed ends
  have done := generate_of_ok contains_nested ofFile_nested written
  exact ⟨_, _, asked, (run_generate asked nestedDisk).trans done⟩

/-- The files are listed, printed and written as the manifest says, with a directory that is made on the way. -/
theorem check_agrees_nested :
    nestedDisk.contains "maps.toml" = true ∧ exitCode (checkArguments "maps.toml") nestedDisk = 0 ∧
      exitCode (dryRunArguments "maps.toml") nestedDisk = 0 ∧
      ∃ (listed printed : String) (files : List Generator.RenderedFile) (text : String) (disk' : Disk),
        run (checkArguments "maps.toml") nestedDisk = .ok listed nestedDisk ∧
        run (dryRunArguments "maps.toml") nestedDisk = .ok printed nestedDisk ∧
        files.map (·.path) = ["src/Maps.cs", "src/WeakMapping.cs"] ∧
        listed = checkedFacts "maps.toml" nested ++ String.join (files.map fun file => s!"  - {file.path}\n") ∧
        printed =
          String.join (files.map fun file => s!"── {file.path} ──\n{file.content}") ++ previewCount files ∧
        run ["generate", "-c", "maps.toml", "-o", "out"] nestedDisk = .ok text disk' ∧
        ∀ file ∈ files, disk'.readBytes (Path.append "out" file.path) = .ok file.content.toUTF8 := by
  have named : namesFile "maps.toml" = true := by decide +kernel
  have checked := (run_check ((ofArguments?_check _).trans (if_pos named)) nestedDisk).trans (check_of_ok ofFile_nested)
  have previewed := (run_generate ((ofArguments?_dryRun _).trans (if_pos named)) nestedDisk).trans
    (dryRun_of_ok contains_nested ofFile_nested)
  obtain ⟨text, disk', asked, written⟩ := generate_nested
  obtain ⟨codes, _, _, prints⟩ := check_agrees contains_nested
  have code : exitCode (checkArguments "maps.toml") nestedDisk = 0 := by
    unfold exitCode
    rw [checked]
  obtain ⟨manifest, files, read, rendered, listed, printed, contents⟩ := prints _ _ _ _ checked previewed
  cases ofFile_nested.symm.trans read
  have paths : files.map (·.path) = ["src/Maps.cs", "src/WeakMapping.cs"] := by
    cases rendered.symm.trans (Generator.preview_eq (isValid_of_ofFile ofFile_nested))
    decide +kernel
  exact ⟨contains_nested, code, codes ▸ code, _, _, files, text, disk', checked, previewed, paths, listed, printed,
    written, contents _ "out" text disk' asked written⟩

end Polyadic.CommandLine
