import Polyadic.Proofs.Disk.Passing
import Polyadic.Proofs.Disk.Removal

/-!
# Files behind missing directories

Writing a file makes the directories on its way first, and what a path leads to can change with them: with no
directory `new`, the path `new/../file` leads to nothing, and to the file beside `new` once that is made. Such a
path is a detour to the file (`IsDetour`). Where a path leads to nothing, writing there changes a file exactly
if the path is a detour to it (`writeFile_of_isDetour`, `isDetour_of_writeFile`), and in a tree it is none
unless it leads back up (`IsDetour.up`).
-/

namespace Polyadic.Disk

open Polyadic.Path (isIdle names segments)

variable {disk disk' : Disk} {path name : String} {location start : Location} {front rest : List String}
  {old new : ByteArray}

/-- Every file is there still, with its content. -/
def KeepsFiles (disk disk' : Disk) : Prop :=
  ∀ location content, disk.get? location = some (.file content) → disk'.get? location = some (.file content)

/-- Whatever there is lies in a directory. -/
def IsTree (disk : Disk) : Prop :=
  ∀ entry ∈ disk.nodes, disk.get? entry.1.dropLast = some .directory

instance (disk : Disk) : Decidable disk.IsTree :=
  inferInstanceAs (Decidable (∀ _ ∈ _, _))

/-- The last segment names a file, but directories on the way to it are missing. -/
structure Detours (disk : Disk) (start : Location) (front : List String) (name : String) (content : ByteArray) :
    Prop where
  passable : disk.Passable start front
  missing : disk.follow start front = .error .notFound
  named : isIdle name = false
  down : name ≠ ".."
  fits : name.utf8ByteSize ≤ maxNameLength
  there : disk.get? (destination start front ++ [name]) = some (.file content)

/-- A path that leads to nothing as long as directories on its way are missing, and to a file with the content
once they are made. -/
def IsDetour (disk : Disk) (path : String) (content : ByteArray) : Prop :=
  checkPath path = .ok () ∧ ∃ front name, segments path = front ++ [name] ∧
    disk.Detours (disk.start path) front name content

lemma KeepsFiles.refl (disk : Disk) : KeepsFiles disk disk :=
  fun _ _ there => there

lemma Grows.keepsFiles (h : Grows disk disk') : KeepsFiles disk disk' :=
  fun _ _ => h.of_some

/-! ## Writing behind missing directories -/

lemma Detours.location_eq (h : disk.Detours (disk.start path) front name old)
    (hsegments : segments path = front ++ [name]) :
    disk.named path = destination (disk.start path) front ++ [name] := by
  rw [Disk.named, hsegments, destination_append]
  exact advance_name h.named h.down

/-- The file is at the location that the path names. -/
lemma IsDetour.there (h : disk.IsDetour path old) : disk.get? (disk.named path) = some (.file old) := by
  obtain ⟨_, front, name, hsegments, detours⟩ := h
  rw [detours.location_eq hsegments, detours.there]

/-- A detour leads to nothing. -/
lemma IsDetour.absent (h : disk.IsDetour path old) : disk.contains path = false := by
  obtain ⟨check, front, name, hsegments, detours⟩ := h
  unfold contains
  cases found : disk.find path with
  | error e => rfl
  | ok found' =>
    obtain ⟨⟨⟩, _, followed⟩ := bind_eq_ok.mp found
    rw [hsegments] at followed
    obtain ⟨dir, leads, _⟩ := leads_of_follow followed
    cases leads.symm.trans detours.missing

/-- Writing to a detour replaces the file. -/
theorem writeFile_of_isDetour (h : disk.IsDetour path old) (new : ByteArray) :
    ∃ disk', writeFile path new disk = .ok () disk' ∧ disk'.get? (disk.named path) = some (.file new) := by
  obtain ⟨check, front, name, hsegments, detours⟩ := id h
  obtain ⟨disk₁, made, paved⟩ := makeParent_of_passable check (Path.names_of_segments hsegments detours.named)
    (passable_filter.mpr detours.passable)
  have leads : disk₁.Leads (disk₁.start path) front (destination (disk.start path) front) := by
    rw [start_eq paved.grows.workingDirectory, ← leads_filter, ← destination_filter]
    exact paved.leads
  have place : disk₁.place path (segments path) = .ok (disk.named path) :=
    place_eq_ok.mpr ⟨check, front, name, _, hsegments, ⟨leads, detours.named, detours.down, detours.fits⟩,
      detours.location_eq hsegments⟩
  have there := paved.grows.of_some h.there
  refine ⟨_, writeFile_of_makeParent made place (by rw [there]; nofun) new, ?_⟩
  rw [get?_set (ne_nil_of_place place), if_pos rfl]

/-- Where a directory is after a file was written, there was one before or nothing. -/
lemma Stores.directory_before (h : Stores disk path location new disk')
    {other : Location} (there : disk'.get? other = some .directory) :
    disk.get? other = none ∨ disk.get? other = some .directory := by
  obtain rfl | apart := eq_or_ne other location
  · cases there.symm.trans (find_file_iff.mp h.found).2
  · obtain same | ⟨free, _⟩ := h.elsewhere other apart
    · exact .inr (same ▸ there)
    · exact .inl free

/-- The only file that writing a file can change is the one at its location. -/
lemma Stores.location_of_changed {other : Location} (h : Stores disk path location new disk')
    (there : disk.get? other = some (.file old)) (changed : disk'.get? other ≠ some (.file old)) :
    other = location := by
  by_contra apart
  obtain same | ⟨free, _⟩ := h.elsewhere other apart
  · exact changed (same.trans there)
  · cases there.symm.trans free

/-- Where a path leads to nothing, writing there changes a file only if it is a detour to that file. -/
theorem isDetour_of_writeFile (absent : disk.contains path = false) (written : writeFile path new disk = .ok () disk')
    (there : disk.get? location = some (.file old)) (changed : disk'.get? location ≠ some (.file old)) :
    disk.IsDetour path old ∧ old ≠ new := by
  obtain ⟨own, stores⟩ := (writeFile_yields path new disk).of_ok written
  obtain ⟨place', there'⟩ := find_file_iff.mp stores.found
  obtain rfl := stores.location_of_changed there changed
  obtain ⟨check, front, name, dir, hsegments, entry, hlocation⟩ := place_eq_ok.mp place'
  have leads : disk'.Leads (disk.start path) front dir := start_eq stores.workingDirectory path ▸ entry.leads
  have end_eq := leads.destination
  have passable := passable_of_leads (fun _ => stores.directory_before) leads
  have missing := (follow_passable passable).resolve_left fun leads => by
    have place : disk.place path (segments path) = .ok location :=
      place_eq_ok.mpr ⟨check, front, name, dir, hsegments,
        ⟨end_eq ▸ leads, entry.named, entry.down, entry.fits⟩, hlocation⟩
    cases absent.symm.trans (contains_of_find (find_file_iff.mpr ⟨place, there⟩))
  refine ⟨⟨check, front, name, hsegments, passable, missing, entry.named, entry.down, entry.fits, ?_⟩, ?_⟩
  · rw [← end_eq, ← hlocation, there]
  · rintro rfl
    exact changed there'

/-- Where a path leads to nothing, writing there keeps all files exactly if it is no detour to a file with other
content. -/
theorem keepsFiles_iff (absent : disk.contains path = false) (new : ByteArray) :
    Session.Yields (writeFile path new) disk (fun _ => KeepsFiles disk) (fun _ => KeepsFiles disk) ↔
      ∀ old, disk.IsDetour path old → old = new := by
  constructor
  · intro keeps old detour
    obtain ⟨disk', written, there⟩ := writeFile_of_isDetour detour new
    have stays := keeps.of_ok written _ old detour.there
    cases there.symm.trans stays
    rfl
  · intro only
    refine .intro (fun _ disk' written location old there => ?_) fun _ _ failed => ?_
    · by_contra changed
      obtain ⟨detour, other⟩ := isDetour_of_writeFile absent written there changed
      exact other (only old detour)
    · exact ((writeFile_yields path new disk).of_error failed).keepsFiles

/-! ## Trees -/

lemma IsTree.parent {node : Node} (tree : disk.IsTree) (nonempty : location ≠ [])
    (there : disk.get? location = some node) : disk.get? location.dropLast = some .directory := by
  rw [get?, if_neg nonempty] at there
  exact tree _ (Assoc.mem_of_lookup there)

/-- Above something there are only directories. -/
lemma IsTree.above {node : Node} (tree : disk.IsTree)
    (there : disk.get? (location ++ (rest ++ [name])) = some node) : disk.get? location = some .directory := by
  induction rest using List.reverseRecOn generalizing node name with
  | nil => simpa using tree.parent (by simp) there
  | append_singleton rest name' ih =>
    have parent := tree.parent (by simp) there
    rw [← List.append_assoc, List.dropLast_concat] at parent
    exact ih parent

/-- In a tree, the way down to something that is there leads through directories. -/
lemma IsTree.leads {node : Node} (tree : disk.IsTree) (passable : disk.Passable start front)
    (down : ".." ∉ front) (there : disk.get? (destination start front ++ [name]) = some node) :
    disk.Leads start front (destination start front) := by
  induction front generalizing start with
  | nil => rfl
  | cons segment front ih =>
    obtain ⟨admits, passable⟩ := passable
    obtain ⟨own, rest⟩ := not_or.mp (mt List.mem_cons.mpr down)
    refine leads_cons.mpr ⟨?_, ih passable rest there⟩
    cases idle : isIdle segment with
    | true => exact .inl idle
    | false =>
      obtain ⟨fits, _⟩ := (admits.resolve_left (by simp [idle])).resolve_left (Ne.symm own)
      have below : destination start (segment :: front) = start ++ [segment] ++ front.filter (!isIdle ·) := by
        rw [destination, List.foldl_cons, advance_name idle (Ne.symm own), ← destination, ← destination_filter]
        exact destination_of_down (by simp) (by simp [rest])
      rw [below, List.append_assoc _ _ [name]] at there
      exact .inr (.inr ⟨fits, tree.above there⟩)

/-- In a tree, a detour leads back up behind a directory that is missing. -/
theorem IsDetour.up (tree : disk.IsTree) (h : disk.IsDetour path old) : ".." ∈ segments path := by
  obtain ⟨_, front, name, hsegments, detours⟩ := h
  by_contra down
  rw [hsegments] at down
  have down : ".." ∉ front := fun mem => down (List.mem_append_left [name] mem)
  cases (tree.leads detours.passable down detours.there).symm.trans detours.missing

end Polyadic.Disk
