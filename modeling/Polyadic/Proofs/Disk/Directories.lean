import Polyadic.Proofs.Disk.Following
import Polyadic.Proofs.Session.Outcome

/-!
# Making directories

Making directories, whether it succeeds or fails, only puts directories where nothing was (`Grows`), and a
directory that is there already is left alone with all above it (`makeDirectories_of_isDirectory`).
-/

namespace Polyadic.Disk

open Session (Yields)
open Polyadic.Path (isIdle)

variable {disk disk' disk'' : Disk} {path : String} {location : Location} {rest : List String}

lemma get?_set (nonempty : location ≠ []) (node : Node) (other : Location) :
    (disk.set location node).get? other = if other = location then some node else disk.get? other := by
  unfold get? set
  dsimp only
  rw [Assoc.lookup_set]
  by_cases root : other = []
  · rw [if_pos root, if_neg (root ▸ nonempty.symm), if_pos root]
  · rw [if_neg root, if_neg root]

lemma ne_nil_of_place (h : disk.place path rest = .ok location) : location ≠ [] := by
  obtain ⟨_, front, name, dir, _, _, rfl⟩ := place_eq_ok.mp h
  exact List.append_ne_nil_of_right_ne_nil dir (List.cons_ne_nil name [])

/-! ## Growth -/

/-- Between two disks only directories were made, where nothing was. -/
structure Grows (disk disk' : Disk) : Prop where
  workingDirectory : disk'.workingDirectory = disk.workingDirectory
  only : ∀ location, disk'.get? location = disk.get? location ∨
    disk.get? location = none ∧ disk'.get? location = some .directory

namespace Grows

lemma refl (disk : Disk) : Grows disk disk :=
  ⟨rfl, fun _ => .inl rfl⟩

lemma trans (h : Grows disk disk') (h' : Grows disk' disk'') : Grows disk disk'' := by
  refine ⟨h'.workingDirectory.trans h.workingDirectory, fun location => ?_⟩
  obtain same | ⟨free, made⟩ := h.only location
  · rw [← same]
    exact h'.only location
  · obtain same' | ⟨free', _⟩ := h'.only location
    · exact .inr ⟨free, same'.trans made⟩
    · exact absurd (made.symm.trans free') nofun

/-- What there is stays. -/
lemma of_some {node : Node} (h : Grows disk disk') (there : disk.get? location = some node) :
    disk'.get? location = some node := by
  obtain same | ⟨free, _⟩ := h.only location
  · rw [same, there]
  · exact absurd (there.symm.trans free) nofun

lemma set_directory (nonempty : location ≠ []) (free : disk.get? location = none) :
    Grows disk (disk.set location .directory) := by
  refine ⟨rfl, fun other => ?_⟩
  rw [get?_set nonempty]
  split
  · rename_i same
    exact .inr ⟨same ▸ free, rfl⟩
  · exact .inl rfl

end Grows

lemma makeDirectory_yields (path : String) (disk : Disk) :
    Yields (makeDirectory path) disk (fun _ => Grows disk) (fun _ disk' => disk' = disk) := by
  unfold Yields makeDirectory
  dsimp only
  cases place : disk.place path ((Path.segments path).reverse.dropWhile (· == "")).reverse with
  | error e => cases e <;> rfl
  | ok location =>
    cases free : disk.get? location with
    | some node => simp only [free]
    | none =>
      simp only [free]
      exact .set_directory (ne_nil_of_place place) free

section Recover

variable {act : Action α} {handler : Error → Action α} {a : α} {e : Error}

lemma tryCatch_of_ok (h : act disk = .ok a disk') : tryCatch act handler disk = .ok a disk' := by
  show EStateM.tryCatch act handler disk = _
  unfold EStateM.tryCatch
  simp only [h]

lemma tryCatch_of_error (h : act disk = .error e disk') : tryCatch act handler disk = handler e disk' := by
  show EStateM.tryCatch act handler disk = _
  unfold EStateM.tryCatch
  simp only [h]
  rfl

lemma tryCatch_yields {post : α → Disk → Prop} {failed fail : Error → Disk → Prop}
    (first : Yields act disk post failed)
    (second : ∀ e disk', failed e disk' → Yields (handler e) disk' post fail) :
    Yields (tryCatch act handler) disk post fail := by
  cases h : act disk with
  | ok a disk' =>
    rw [Yields, tryCatch_of_ok h]
    have hp := first.of_ok h
    exact hp
  | error e disk' =>
    rw [Yields, tryCatch_of_error h]
    exact second e disk' (first.of_error h)

end Recover

/-- A refusal to make a directory is none if the directory is there. -/
def settle (path : String) (e : Error) : Action Unit := fun disk =>
  if disk.isDirectory path then .ok () disk else .error e disk

/-- Making the first of several paths a directory, as a sequence of operations. -/
lemma makeFirst_cons (nonempty : path ≠ "") (shorter : List String) :
    makeFirst (path :: shorter) = tryCatch (makeDirectory path) fun e =>
      if e = .notFound then do
        makeFirst shorter
        tryCatch (makeDirectory path) (settle path)
      else settle path e := by
  funext disk
  simp only [makeFirst, mt String.isEmpty_iff.mp nonempty, Bool.false_eq_true, ↓reduceIte]
  cases first : makeDirectory path disk with
  | ok _ disk₁ => rw [tryCatch_of_ok first]
  | error e disk₁ =>
    rw [tryCatch_of_error first]
    by_cases missing : e = .notFound
    · subst missing
      rw [if_pos rfl]
      dsimp only
      cases above : makeFirst shorter disk₁ with
      | error e disk₂ => rw [Session.bind_of_error above]
      | ok _ disk₂ =>
        rw [Session.bind_of_ok above]
        dsimp only
        cases again : makeDirectory path disk₂ with
        | ok _ disk₃ => rw [tryCatch_of_ok again]
        | error e disk₃ =>
          rw [tryCatch_of_error again]
          rfl
    · rw [if_neg missing]
      cases e <;> first | rfl | exact absurd rfl missing

lemma settle_yields {post : Disk → Prop} {e : Error} (h : post disk) :
    Yields (settle path e) disk (fun _ => post) (fun _ => post) := by
  unfold Yields settle
  by_cases there : disk.isDirectory path = true
  · rwa [if_pos there]
  · rwa [if_neg there]

/-- Making the first of several paths a directory makes directories only, however it ends. -/
lemma makeFirst_yields (paths : List String) (disk : Disk) :
    Yields (makeFirst paths) disk (fun _ => Grows disk) (fun _ => Grows disk) := by
  induction paths generalizing disk with
  | nil => exact .refl disk
  | cons path shorter ih =>
    by_cases empty : path = ""
    · subst empty
      exact .refl disk
    rw [makeFirst_cons empty]
    refine tryCatch_yields (makeDirectory_yields path disk) fun e disk₁ same => ?_
    subst same
    split
    · refine .bind (ih disk₁) fun _ disk₂ grown => ?_
      refine tryCatch_yields ((makeDirectory_yields path disk₂).mono (fun _ _ made => grown.trans made)
        fun _ _ same => same) fun e disk₃ same => ?_
      subst same
      exact settle_yields grown
    · exact settle_yields (.refl disk₁)

lemma makeParent_yields (path : String) (disk : Disk) :
    Yields (makeParent path) disk (fun _ => Grows disk) (fun _ => Grows disk) := by
  unfold makeParent
  split
  · exact .refl disk
  · exact makeFirst_yields _ disk

/-! ## Directories that are there -/

/-- Where segments lead to a directory, the place of it is refused or holds it, but is never missing. -/
lemma place_of_leads (check : checkPath path = .ok ()) (leads : disk.Leads (disk.start path) rest location) :
    (∃ e, disk.place path rest = .error e ∧ e ≠ .notFound) ∨
      ∃ location, disk.place path rest = .ok location ∧ disk.get? location = some .directory := by
  obtain rfl | ⟨front, last, rfl⟩ := List.eq_nil_or_concat' rest
  · refine .inl ⟨.alreadyThere, ?_, nofun⟩
    unfold place
    rw [check]
    rfl
  · obtain ⟨dir, leads, there⟩ := leads_append.mp leads
    by_cases up : isIdle last = true ∨ last = ".."
    · have leads : disk.follow (disk.start path) front = .ok (dir, .directory) := leads
      have refused : (isIdle last || last == "..") = true := by
        rwa [Bool.or_eq_true, beq_iff_eq]
      refine .inl ⟨.isDirectory, ?_, nofun⟩
      unfold place
      rw [check, List.dropLast_concat, List.getLast?_concat]
      show (disk.follow (disk.start path) front >>= _) = _
      rw [leads]
      exact if_pos refused
    · obtain ⟨named, down⟩ := not_or.mp up
      obtain ⟨fits, there⟩ := ((leads_cons.mp there).1.resolve_left named).resolve_left down
      refine .inr ⟨_, place_eq_ok.mpr ⟨check, front, last, dir, rfl, ⟨leads, ?_, down, fits⟩, rfl⟩, there⟩
      exact Bool.eq_false_of_not_eq_true named

lemma makeDirectory_of_isDirectory (there : disk.isDirectory path = true) :
    ∃ e, makeDirectory path disk = .error e disk ∧ e ≠ .notFound := by
  obtain ⟨check, location, leads⟩ := isDirectory_iff.mp there
  have cut : (Path.segments path) = ((Path.segments path).reverse.dropWhile (· == "")).reverse ++
      ((Path.segments path).reverse.takeWhile (· == "")).reverse := by
    rw [← List.reverse_append, List.takeWhile_append_dropWhile, List.reverse_reverse]
  rw [cut] at leads
  obtain ⟨dir, leads, _⟩ := leads_append.mp leads
  unfold makeDirectory
  dsimp only
  obtain ⟨e, refused, other⟩ | ⟨place, found, there⟩ := place_of_leads check leads
  · rw [refused]
    cases e <;> first | exact absurd rfl other | exact ⟨_, rfl, nofun⟩
  · rw [found]
    dsimp only
    rw [there]
    exact ⟨.alreadyThere, rfl, nofun⟩

/-- Making a directory that is there does nothing. -/
theorem makeDirectories_of_isDirectory (there : disk.isDirectory path = true) :
    makeDirectories path disk = .ok () disk := by
  obtain ⟨e, refused, other⟩ := makeDirectory_of_isDirectory there
  have nonempty : path ≠ "" := (checkPath_eq_ok.mp (isDirectory_iff.mp there).1).1
  obtain ⟨shorter, ancestors⟩ : ∃ shorter, Path.ancestors path = path :: shorter := by
    cases h : Path.parent? path with
    | none => exact ⟨[], Path.ancestors_of_none h⟩
    | some dir => exact ⟨_, Path.ancestors_of_some h⟩
  rw [makeDirectories, ancestors, makeFirst_cons nonempty, tryCatch_of_error refused, if_neg other, settle,
    if_pos there]

end Polyadic.Disk
