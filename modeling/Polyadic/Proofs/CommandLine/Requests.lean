import Polyadic.CommandLine.Run
import Mathlib

/-!
# Requests and runs

What arguments ask for when they name a manifest file to be checked or previewed, and what a run of the program
leaves: its exit code and the disk.
-/

namespace Polyadic.CommandLine

/-- The exit code of a run. -/
def exitCode (arguments : List String) (disk : Disk) : Nat :=
  match run arguments disk with
  | .ok _ _ => 0
  | .error failure _ => failure.code

/-- The disk that a run leaves, whether or not it succeeds. -/
def diskAfter (arguments : List String) (disk : Disk) : Disk :=
  match run arguments disk with
  | .ok _ disk' => disk'
  | .error _ disk' => disk'

/-- The arguments that ask to check a manifest file. -/
def checkArguments (config : String) : List String :=
  ["check", "-c", config]

/-- The arguments that ask for the files of a manifest file without writing them. -/
def dryRunArguments (config : String) : List String :=
  ["generate", "-c", config, "--dry-run"]

/-- A text that can stand behind the letter of a setting as the path of a file. -/
def namesFile (config : String) : Bool :=
  isValue config && !config.isEmpty

lemma path?_eq {text : String} {empty : Bool} (h : text.isEmpty = empty) :
    path? text = if empty then none else some text := by
  rw [path?, h]

lemma ofArguments?_check (config : String) : Request.ofArguments? (checkArguments config) =
    if namesFile config then some (.check config) else none := by
  have said : items checkSwitches ["-c", config] =
      if isValue config then [.setting "config" config] else [.unknown] := by
    rfl
  show checkRequest? ["-c", config] = _
  unfold checkRequest?
  rw [said, namesFile]
  cases isValue config with
  | false => rfl
  | true =>
    cases empty : config.isEmpty <;> simp [read, words, path?_eq empty, Reading.request?]

lemma ofArguments?_dryRun (config : String) : Request.ofArguments? (dryRunArguments config) =
    if namesFile config then some (.generate { config, dryRun := true }) else none := by
  have said : items generateSwitches ["-c", config, "--dry-run"] =
      if isValue config then [.setting "config" config, .switch "dry-run"] else [.unknown] := by
    rfl
  show generateRequest? ["-c", config, "--dry-run"] = _
  unfold generateRequest?
  rw [said, namesFile]
  cases isValue config with
  | false => rfl
  | true =>
    cases empty : config.isEmpty <;> simp [read, words, path?_eq empty, Reading.request?, Generate.put]

variable {arguments : List String}

lemma run_of_some {request : Request} (h : Request.ofArguments? arguments = some request) (disk : Disk) :
    run arguments disk = request.run disk := by
  unfold run
  rw [h]

lemma run_check {config : String} (h : Request.ofArguments? arguments = some (.check config)) (disk : Disk) :
    run arguments disk = check config disk :=
  run_of_some h disk

lemma run_generate {what : Generate} (h : Request.ofArguments? arguments = some (.generate what)) (disk : Disk) :
    run arguments disk = generate what disk :=
  run_of_some h disk

lemma run_init {directory : String} {force : Bool}
    (h : Request.ofArguments? arguments = some (.init directory force)) (disk : Disk) :
    run arguments disk = init directory force disk :=
  run_of_some h disk

lemma run_of_none (h : Request.ofArguments? arguments = none) (disk : Disk) :
    run arguments disk = .error .arguments disk := by
  unfold run
  rw [h]
  rfl

end Polyadic.CommandLine
