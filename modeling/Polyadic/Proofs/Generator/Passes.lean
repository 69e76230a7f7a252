import Polyadic.Generator
import Polyadic.Proofs.Disk.Removal
import Polyadic.Proofs.Session.Apart
import Polyadic.Proofs.Session.Lines
import Polyadic.Proofs.Session.Run

/-!
# Passes into files

Between its begin and its end a pass does not touch the disk (`StaysApart.execAll`), so a pass into a file is
one write of the whole text that the program prints (`runPass_of_emits`). It fails when the file cannot be
made, or else leaves nothing of it (`PassFails`). A tidy program fails in the first way only, and its pass
answers the number of line feeds in the text (`runPass_yields`).
-/

namespace Polyadic.Generator

open Session (Machine Step Item Yields Printed Tallies StaysApart finish_disk)
open Session.Machine (onDisk store)

/-! ## Passes into files -/

section File

variable {options : Session.Options} {path : String} {disk : Disk}

lemma onDisk_yields (act : Disk.Action α) (m : Machine) :
    Yields (onDisk act) m (fun a m' => act m.disk = .ok a m'.disk ∧ m'.session = m.session)
      (fun e m' => e = .write ∧ ∃ e, act m.disk = .error e m'.disk) := by
  obtain ⟨session, disk, output, released⟩ := m
  unfold Yields onDisk
  cases h : act disk with
  | ok a disk' => simp only [h, and_self]
  | error e disk' =>
    simp only [h]
    exact ⟨trivial, e, rfl⟩

/-- A pass begins once the file is made; if that fails, writing the file would have failed in the same way. -/
lemma begin_yields (options : Session.Options) (path : String) (disk : Disk) :
    Yields (Machine.begin (.file path)) (.ofOptions options disk)
      (fun _ m => ∃ disk₁ location, Disk.makeParent path disk = .ok () disk₁ ∧
        Disk.createFile path disk₁ = .ok location m.disk ∧ m.output = some location ∧
        Printed ⟨options, {}, rfl, [], []⟩ 0 false "" m.session ∧ Tallies [] m.session)
      (fun e m => e = .write ∧ ∀ content, ∃ e, Disk.writeFile path content disk = .error e m.disk) := by
  refine .get_bind ?_
  refine .bind ((onDisk_yields (Disk.makeParent path) _).mono (fun _ _ h => h) ?_) ?_
  · rintro e m ⟨rfl, e, refused⟩
    exact ⟨rfl, fun content => ⟨e, Session.bind_of_error refused⟩⟩
  rintro _ m₁ ⟨parent, h₁⟩
  refine .bind ((onDisk_yields (Disk.createFile path) m₁).mono (fun _ _ h => h) ?_) ?_
  · have parent : Disk.makeParent path disk = .ok () m₁.disk := parent
    rintro e m ⟨rfl, e, refused⟩
    refine ⟨rfl, fun content => ⟨e, ?_⟩⟩
    rw [Disk.writeFile, Session.bind_of_ok parent, Session.bind_of_error refused]
  rintro location m₂ ⟨created, h₂⟩
  have fresh : m₂.session = .ofOptions options := h₂.trans h₁
  have tallies : Tallies [] m₂.session := by
    rw [fresh]
    refine ⟨rfl, ?_, ?_⟩
    · rintro sink ⟨⟩
    · rintro block (_ | ⟨_, ⟨⟩⟩)
  have idle : m₂.session.isActive = false := by rw [fresh]; rfl
  have place : @Machine.topLevel m₂ {} rfl = ⟨options, {}, rfl, [], []⟩ := by
    unfold Machine.topLevel
    rw [fresh]
    rfl
  have begun := (@Printed.attach_yields m₂ {} rfl idle).and (tallies.begin_yields rfl)
  rw [place] at begun
  refine .bind ((begun.onSession.and (StaysApart.onSession _ m₂)).mono (fun _ _ h => h) fun _ _ h => h.1.1.elim) ?_
  rintro _ m₃ ⟨⟨printed, tallies⟩, apart⟩
  refine ⟨m₁.disk, location, parent, ?_, rfl, printed, tallies⟩
  rw [created]
  exact congrArg _ apart.disk.symm

/-- The end of a pass is tried, and whether or not it succeeds, the file is removed. -/
lemma discard_of_found {m : Machine} {place : Disk.Location} {content : ByteArray}
    (found : (Machine.outcome Machine.finish m).2.disk.find path = .ok (place, .file content)) :
    discard path m = (Machine.outcome Machine.finish m).2.disk.erase place := by
  unfold discard
  unfold Machine.outcome at found ⊢
  cases ended : Machine.finish m with
  | ok out m' =>
    simp only [ended] at found ⊢
    rw [Disk.removeFile_of_found found]
  | error e m' =>
    simp only [ended] at found ⊢
    rw [Disk.removeFile_of_found found]

/-- A pass that was begun and given up leaves nothing of its file. -/
lemma discard_clears {m m' : Machine} {place : Disk.Location}
    (named : disk.place path (Path.segments path) = .ok place) (other : disk.get? place ≠ some .directory)
    (made : m.disk = disk.set place (.file .empty)) (output : m.output = some place)
    (apart : Session.Apart m m') : Disk.Clears disk path place (discard path m') := by
  have kept : m'.disk = disk.set place (.file .empty) := apart.disk.trans made
  -- Whether or not the pass can be ended, there is a file at its place then.
  have ended : Yields Machine.finish m' (fun _ m'' => ∃ content, m''.disk = disk.set place (.file content))
      (fun _ m'' => ∃ content, m''.disk = disk.set place (.file content)) := by
    refine (finish_disk m').mono (fun out m'' stored => ⟨out.content, ?_⟩) fun _ _ same => ⟨_, same.trans kept⟩
    rw [stored, store, apart.output, output, kept]
    exact Disk.set_set disk place _ _
  obtain ⟨content, ended⟩ := ended.outcome
  have stores := Disk.Stores.set named other content
  obtain ⟨named', there⟩ := Disk.find_file_iff.mp stores.found
  rw [← ended] at stores named' there
  have file : (Machine.outcome Machine.finish m').2.disk.get? place ≠ some .directory := by
    intro directory
    cases there.symm.trans directory
  rw [discard_of_found stores.found]
  exact .of_spares stores.spares (.erase named' file)

/-- How a pass into a file fails: the file cannot be made, or it was made and what is to be emitted does not
fit, and then nothing is left of the file. -/
inductive PassFails (path : String) (program : Session.Program) (disk : Disk) : Failure → Disk → Prop where
  | create {disk'} : (∀ content, ∃ e, Disk.writeFile path content disk = .error e disk') →
    PassFails path program disk ⟨.create, path, .write⟩ disk'
  | emit {cause place disk'} : ¬ Step.FitsAll [] false program → Disk.Clears disk path place disk' →
    PassFails path program disk ⟨.emit, path, cause⟩ disk'

/-- A pass of a program that emits writes what the program prints into its file, in one write, or it fails. If
no text has a line feed in it, the pass answers how many of them there are. -/
theorem runPass_of_emits (options : Session.Options) (path : String) {program : Session.Program}
    (emits : Step.EmitsAll program) {content : String}
    (prints : content = Item.printAll options 0 (Step.itemsAll [] program)) (disk : Disk) :
    Yields (runPass options path program) disk
      (fun lines disk' => Step.FitsAll [] false program ∧
        Disk.writeFile path content.toUTF8 disk = .ok () disk' ∧
        (Step.UnbrokenAll [] program → lines = content.toList.count '\n'))
      (PassFails path program disk) := by
  unfold Yields runPass
  cases begun : Machine.begin (.file path) (.ofOptions options disk) with
  | error e m =>
    obtain ⟨rfl, refused⟩ := (begin_yields options path disk).of_error begun
    exact .create refused
  | ok _ m₁ =>
    obtain ⟨disk₁, location, parent, created, output, printed, tallies⟩ :=
      (begin_yields options path disk).of_ok begun
    have emitted := (Printed.execAll program emits _ 0 false "" m₁ printed).and
      (StaysApart.execAll program emits m₁)
    have tallied (unbroken : Step.UnbrokenAll [] program) :=
      Tallies.execAll program [] unbroken m₁ tallies
    dsimp only
    cases run : Step.execAll program m₁ with
    | error e m₂ =>
      obtain ⟨misfit, apart⟩ := emitted.of_error run
      obtain ⟨place, other, made⟩ := (Disk.createFile_yields path disk₁).of_ok created
      have grown := (Disk.makeParent_yields path disk).of_ok parent
      exact .emit misfit (.of_spares (grown.spares _) (discard_clears place other made output apart))
    | ok _ m₂ =>
      obtain ⟨⟨fits, printed⟩, apart⟩ := emitted.of_ok run
      have ended := (printed.finish_yields rfl rfl).and (finish_disk m₂)
      dsimp only
      cases finished : Machine.finish m₂ with
      | error e m₃ => exact (ended.of_error finished).1.elim
      | ok out m₃ =>
        obtain ⟨⟨held, _⟩, stored⟩ := ended.of_ok finished
        have bytes : out.content = content.toUTF8 := by
          rw [held, prints, String.empty_append]
          exact ByteArray.empty_append
        have written : m₃.disk = m₁.disk.set location (.file content.toUTF8) := by
          rw [stored, store, apart.output, output, ← bytes, ← apart.disk]
        refine ⟨fits, ?_, fun unbroken => ?_⟩
        · rw [Disk.writeFile, Session.bind_of_ok parent, Session.bind_of_ok created, written]
          rfl
        · obtain ⟨lines, _⟩ := (Yields.finish ((tallied unbroken).of_ok run).finish_yields).of_ok finished
          rw [← lines, bytes, Text.lineFeeds_toUTF8]

/-- A pass of a tidy program into a file writes what the program prints, in one write, and answers how many
line feeds there are in it. It fails when that write fails, before anything is emitted. -/
theorem runPass_yields (options : Session.Options) (path : String) {program : Session.Program}
    (tidy : Step.TidyAll [] program) {content : String}
    (prints : content = Item.printAll options 0 (Step.itemsAll [] program)) (disk : Disk) :
    Yields (runPass options path program) disk
      (fun lines disk' => Disk.writeFile path content.toUTF8 disk = .ok () disk' ∧
        lines = content.toList.count '\n')
      (fun failure disk' => failure = ⟨.create, path, .write⟩ ∧
        ∃ e, Disk.writeFile path content.toUTF8 disk = .error e disk') := by
  obtain ⟨emits, fits, _⟩ := tidy.areSettled
  refine (runPass_of_emits options path emits prints disk).mono ?_ ?_
  · rintro lines disk' ⟨_, written, lines⟩
    exact ⟨written, lines tidy.unbroken⟩
  · rintro failure disk' failed
    cases failed with
    | create refused => exact ⟨rfl, refused _⟩
    | emit misfit => exact absurd (fits false) misfit

end File

end Polyadic.Generator
