import Polyadic.Disk
import Polyadic.Proofs.Except
import Polyadic.Proofs.Path.Segments

/-!
# Following paths

Segments have a destination by themselves (`destination`), and following them on a disk ends there if it
succeeds (`Leads.destination`). What it takes to get there are directories, so a disk that has more of them
leads wherever one with fewer does (`Leads.mono`), and segments that say nothing do not matter
(`leads_names`). `place_eq_ok` and `find_file_iff` say the same of the place that a path names and of the
file that is found there.
-/

namespace Polyadic.Disk

open Polyadic.Path (isIdle names segments)

/-- Where a segment leads from a location, whatever is there. -/
def advance (location : Location) (segment : String) : Location :=
  if isIdle segment then location
  else if segment = ".." then location.dropLast
  else location ++ [segment]

/-- Where segments lead from a location, whatever is there. -/
def destination (location : Location) (segments : List String) : Location :=
  segments.foldl advance location

/-- A segment does not lead from a location to anything but a directory. -/
def Opens (disk : Disk) (location : Location) (segment : String) : Prop :=
  isIdle segment = true ∨ segment = ".." ∨
    segment.utf8ByteSize ≤ maxNameLength ∧ disk.get? (location ++ [segment]) = some .directory

/-- Segments lead from one location to a directory at another. -/
def Leads (disk : Disk) (location : Location) (segments : List String) (location' : Location) : Prop :=
  disk.follow location segments = .ok (location', .directory)

/-! ## Destinations -/

section Destination

variable {location : Location} {segment : String} {rest : List String}

lemma advance_idle (idle : isIdle segment = true) : advance location segment = location :=
  if_pos idle

lemma advance_name (name : isIdle segment = false) (down : segment ≠ "..") :
    advance location segment = location ++ [segment] := by
  rw [advance, if_neg (by simp [name]), if_neg down]

lemma destination_append (location : Location) (front back : List String) :
    destination location (front ++ back) = destination (destination location front) back :=
  List.foldl_append

lemma destination_filter (location : Location) (rest : List String) :
    destination location (rest.filter (!isIdle ·)) = destination location rest := by
  have skips (location : Location) (segment : String) :
      (if (!isIdle segment) = true then advance location segment else location) = advance location segment := by
    cases idle : isIdle segment with
    | true => exact (advance_idle idle).symm
    | false => rfl
  rw [destination, List.foldl_filter, destination]
  simp only [skips]

lemma destination_segments (location : Location) (path : String) :
    destination location (segments path) = destination location (names path) :=
  (destination_filter location _).symm

/-- Names that do not lead back lead down one after the other. -/
lemma destination_of_down (named : ∀ name ∈ rest, isIdle name = false) (down : ".." ∉ rest) :
    destination location rest = location ++ rest := by
  induction rest generalizing location with
  | nil => exact (List.append_nil location).symm
  | cons name rest ih =>
    obtain ⟨hname, hrest⟩ := List.forall_mem_cons.mp named
    obtain ⟨hdown, down⟩ := not_or.mp (mt List.mem_cons.mpr down)
    rw [destination, List.foldl_cons, advance_name hname (Ne.symm hdown)]
    exact (ih hrest down).trans (List.append_assoc location [name] rest)

lemma isIdle_of_mem_names {path name : String} (h : name ∈ names path) : isIdle name = false := by
  simpa using (List.mem_filter.mp h).2

lemma destination_names {path : String} (down : ".." ∉ names path) :
    destination location (names path) = location ++ names path :=
  destination_of_down (fun _ h => isIdle_of_mem_names h) down

end Destination

/-! ## Ways -/

section Leads

variable {disk disk' : Disk} {location location' : Location} {segment : String} {front back rest : List String}

lemma follow_idle (idle : isIdle segment = true) :
    disk.follow location (segment :: rest) = disk.follow location rest := by
  rw [follow, if_pos idle]

lemma follow_opens (opens : disk.Opens location segment) :
    disk.follow location (segment :: rest) = disk.follow (advance location segment) rest := by
  obtain idle | rfl | ⟨fits, there⟩ := opens
  · rw [follow_idle idle, advance_idle idle]
  · rfl
  · rw [follow, advance]
    split
    · rfl
    · split
      · rfl
      · rw [if_neg (Nat.not_lt.mpr fits), there]

lemma follow_of_not_opens (closed : ¬ disk.Opens location segment) {found : Location × Node}
    (h : disk.follow location (segment :: rest) = .ok found) :
    rest = [] ∧ isIdle segment = false ∧ segment ≠ ".." ∧ segment.utf8ByteSize ≤ maxNameLength ∧
      found.1 = location ++ [segment] ∧ disk.get? found.1 = some found.2 ∧ found.2 ≠ .directory := by
  obtain ⟨named, down, absent⟩ : ¬ isIdle segment = true ∧ segment ≠ ".." ∧ _ := by
    simpa only [Opens, not_or] using closed
  rw [follow, if_neg named, if_neg down] at h
  split at h
  · cases h
  · rename_i fits
    have fits := Nat.not_lt.mp fits
    split at h
    · cases h
    · rename_i there
      exact absurd ⟨fits, there⟩ absent
    · rename_i content there
      split at h
      · rename_i last
        cases h
        exact ⟨List.isEmpty_iff.mp last, Bool.eq_false_of_not_eq_true named, down, fits, rfl, there, nofun⟩
      · cases h

/-- Segments lead on from where the first of them leads. -/
lemma leads_cons : disk.Leads location (segment :: rest) location' ↔
    disk.Opens location segment ∧ disk.Leads (advance location segment) rest location' := by
  constructor
  · intro h
    by_cases opens : disk.Opens location segment
    · refine ⟨opens, ?_⟩
      rw [Leads, ← follow_opens opens]
      exact h
    · obtain ⟨_, _, _, _, _, _, file⟩ := follow_of_not_opens opens h
      exact absurd rfl file
  · rintro ⟨opens, h⟩
    rw [Leads, follow_opens opens]
    exact h

lemma leads_append : disk.Leads location (front ++ back) location' ↔
    ∃ middle, disk.Leads location front middle ∧ disk.Leads middle back location' := by
  induction front generalizing location with
  | nil =>
    constructor
    · exact fun h => ⟨location, rfl, h⟩
    · rintro ⟨_, ⟨⟩, h⟩
      exact h
  | cons segment front ih =>
    rw [List.cons_append, leads_cons, ih]
    constructor
    · rintro ⟨opens, middle, first, second⟩
      exact ⟨middle, leads_cons.mpr ⟨opens, first⟩, second⟩
    · rintro ⟨middle, first, second⟩
      obtain ⟨opens, first⟩ := leads_cons.mp first
      exact ⟨opens, middle, first, second⟩

/-- Segments that say nothing do not matter on the way to a directory. -/
lemma leads_filter :
    disk.Leads location (rest.filter (!isIdle ·)) location' ↔ disk.Leads location rest location' := by
  induction rest generalizing location with
  | nil => exact Iff.rfl
  | cons segment rest ih =>
    rw [leads_cons]
    cases idle : isIdle segment with
    | true =>
      rw [List.filter_cons_of_neg (by simp [idle]), ih, advance_idle idle]
      exact (and_iff_right (.inl idle)).symm
    | false => rw [List.filter_cons_of_pos (by simp [idle]), leads_cons, ih]

lemma leads_names {path : String} :
    disk.Leads location (names path) location' ↔ disk.Leads location (segments path) location' :=
  leads_filter

/-- A way ends at the destination of its segments. -/
lemma Leads.destination (h : disk.Leads location rest location') :
    location' = Disk.destination location rest := by
  induction rest generalizing location with
  | nil =>
    cases h
    rfl
  | cons segment rest ih => exact ih (leads_cons.mp h).2

/-- A disk with more directories leads wherever one with fewer does. -/
lemma Leads.mono (more : ∀ location, disk.get? location = some .directory →
    disk'.get? location = some .directory) (h : disk.Leads location rest location') :
    disk'.Leads location rest location' := by
  induction rest generalizing location with
  | nil => exact h
  | cons segment rest ih =>
    obtain ⟨opens, h⟩ := leads_cons.mp h
    refine leads_cons.mpr ⟨?_, ih h⟩
    exact opens.imp_right fun opens => opens.imp_right fun ⟨fits, there⟩ => ⟨fits, more _ there⟩

lemma Leads.follow (h : disk.Leads location front location') :
    disk.follow location (front ++ back) = disk.follow location' back := by
  induction front generalizing location with
  | nil =>
    cases h
    rfl
  | cons segment front ih =>
    obtain ⟨opens, h⟩ := leads_cons.mp h
    rw [List.cons_append, follow_opens opens, ih h]

/-- What segments lead to lies in the directory to which all but the last of them lead. -/
lemma leads_of_follow {last : String} {found : Location × Node}
    (h : disk.follow location (front ++ [last]) = .ok found) :
    ∃ middle, disk.Leads location front middle ∧ disk.follow middle [last] = .ok found := by
  induction front generalizing location with
  | nil => exact ⟨location, rfl, h⟩
  | cons segment front ih =>
    by_cases opens : disk.Opens location segment
    · rw [List.cons_append, follow_opens opens] at h
      obtain ⟨middle, leads, h⟩ := ih h
      exact ⟨middle, leads_cons.mpr ⟨opens, leads⟩, h⟩
    · obtain ⟨empty, _⟩ := follow_of_not_opens opens h
      exact absurd empty (List.append_ne_nil_of_right_ne_nil front (List.cons_ne_nil last []))

end Leads

/-! ## Entries of directories -/

/-- The last segment is a name for an entry of the directory to which the others lead. -/
structure Entry (disk : Disk) (location : Location) (front : List String) (name : String) (dir : Location) :
    Prop where
  leads : disk.Leads location front dir
  named : isIdle name = false
  down : name ≠ ".."
  fits : name.utf8ByteSize ≤ maxNameLength

section Entry

variable {disk disk' : Disk} {path : String} {location : Location} {front rest : List String}

lemma Entry.mono {start dir : Location} {name : String} (more : ∀ location,
    disk.get? location = some .directory → disk'.get? location = some .directory)
    (h : disk.Entry start front name dir) : disk'.Entry start front name dir :=
  ⟨h.leads.mono more, h.named, h.down, h.fits⟩

lemma concat_of_getLast? {last : String} (h : rest.getLast? = some last) : rest = rest.dropLast ++ [last] := by
  obtain ⟨front, rfl⟩ := List.getLast?_eq_some_iff.mp h
  rw [List.dropLast_concat]

lemma checkPath_eq_ok : checkPath path = .ok () ↔
    path ≠ "" ∧ '\x00' ∉ path.toList ∧ path.utf8ByteSize ≤ maxPathLength := by
  unfold checkPath
  split
  · rename_i empty
    exact ⟨nofun, fun h => absurd (String.isEmpty_iff.mp empty) h.1⟩
  · rename_i nonempty
    split
    · rename_i bad
      exact ⟨nofun, fun h => absurd (List.contains_iff_mem.mp bad) h.2.1⟩
    · rename_i clean
      split
      · rename_i long
        exact ⟨nofun, fun h => absurd long (Nat.not_lt.mpr h.2.2)⟩
      · rename_i short
        refine ⟨fun _ => ⟨mt String.isEmpty_iff.mpr nonempty, ?_, Nat.not_lt.mp short⟩, fun _ => rfl⟩
        exact fun bad => clean (List.contains_iff_mem.mpr bad)

lemma checkPath_of_front {front : String} (front_of : front.toList <+: path.toList) (nonempty : front ≠ "")
    (h : checkPath path = .ok ()) : checkPath front = .ok () := by
  obtain ⟨_, clean, short⟩ := checkPath_eq_ok.mp h
  obtain ⟨back, hback⟩ := front_of
  have cut : path = front ++ String.ofList back := by
    apply String.toList_injective
    rw [String.toList_append, String.toList_ofList, hback]
  refine checkPath_eq_ok.mpr ⟨nonempty, fun bad => clean ?_, ?_⟩
  · exact hback ▸ List.mem_append_left back bad
  · rw [cut, String.utf8ByteSize_append] at short
    exact Nat.le_trans (Nat.le_add_right _ _) short

lemma isDirectory_iff : disk.isDirectory path = true ↔
    checkPath path = .ok () ∧ ∃ location, disk.Leads (disk.start path) (segments path) location := by
  unfold isDirectory
  split
  · rename_i location h
    obtain ⟨⟨⟩, check, h⟩ := bind_eq_ok.mp h
    exact iff_of_true rfl ⟨check, location, h⟩
  · rename_i other
    refine iff_of_false Bool.false_ne_true ?_
    rintro ⟨check, location, leads⟩
    exact other location (bind_eq_ok.mpr ⟨(), check, leads⟩)

lemma place_eq_ok : disk.place path rest = .ok location ↔
    checkPath path = .ok () ∧ ∃ front name dir, rest = front ++ [name] ∧
      disk.Entry (disk.start path) front name dir ∧ location = dir ++ [name] := by
  constructor
  · intro h
    unfold place at h
    obtain ⟨⟨⟩, check, h⟩ := bind_eq_ok.mp h
    obtain ⟨⟨dir, node⟩, leads, h⟩ := bind_eq_ok.mp h
    dsimp only at h
    split at h
    · cases h
    · cases h
    · rename_i name last
      split at h
      · cases h
      · rename_i named
        rw [Bool.or_eq_true, beq_iff_eq, not_or] at named
        obtain ⟨named, down⟩ := named
        split at h
        · cases h
        · rename_i fits
          refine ⟨check, _, name, dir, concat_of_getLast? last, ⟨leads, ?_, down, Nat.not_lt.mp fits⟩, ?_⟩
          · exact Bool.eq_false_of_not_eq_true named
          · exact (Except.ok.inj h).symm
  · rintro ⟨check, front, name, dir, rfl, ⟨leads, named, down, fits⟩, rfl⟩
    have leads : disk.follow (disk.start path) front = .ok (dir, .directory) := leads
    have down : (name == "..") = false := beq_eq_false_iff_ne.mpr down
    unfold place
    refine bind_eq_ok.mpr ⟨(), check, bind_eq_ok.mpr ⟨(dir, .directory), ?_, ?_⟩⟩
    · rwa [List.dropLast_concat]
    · rw [List.getLast?_concat]
      simp only [named, down, Bool.or_false, Bool.false_eq_true, ↓reduceIte, Nat.not_lt.mpr fits]
      rfl

lemma Entry.follow {start dir : Location} {name : String} {content : ByteArray}
    (h : disk.Entry start front name dir) (there : disk.get? (dir ++ [name]) = some (.file content)) :
    disk.follow start (front ++ [name]) = .ok (dir ++ [name], .file content) := by
  rw [h.leads.follow, Disk.follow, if_neg (by simp [h.named]), if_neg h.down,
    if_neg (Nat.not_lt.mpr h.fits), there]
  rfl

/-- A path leads to a file when it names the place of one. -/
lemma find_file_iff {content : ByteArray} : disk.find path = .ok (location, .file content) ↔
    disk.place path (segments path) = .ok location ∧ disk.get? location = some (.file content) := by
  rw [place_eq_ok]
  constructor
  · intro h
    obtain ⟨⟨⟩, check, h⟩ := bind_eq_ok.mp h
    obtain ⟨front, name, hsegments⟩ := List.eq_nil_or_concat' _ |>.resolve_left (Path.segments_ne_nil path)
    rw [hsegments] at h
    obtain ⟨dir, leads, h⟩ := leads_of_follow h
    by_cases opens : disk.Opens dir name
    · rw [follow_opens opens] at h
      cases h
    · obtain ⟨_, named, down, fits, hlocation, there, _⟩ := follow_of_not_opens opens h
      exact ⟨⟨check, front, name, dir, hsegments, ⟨leads, named, down, fits⟩, hlocation⟩, there⟩
  · rintro ⟨⟨check, front, name, dir, hsegments, entry, rfl⟩, there⟩
    refine bind_eq_ok.mpr ⟨(), check, ?_⟩
    rw [hsegments]
    exact entry.follow there

lemma start_eq (same : disk'.workingDirectory = disk.workingDirectory) (path : String) :
    disk'.start path = disk.start path := by
  rw [start, start, same]

/-- The place that a path names is found again when there are more directories. -/
lemma place_mono (same : disk'.workingDirectory = disk.workingDirectory) (more : ∀ location,
    disk.get? location = some .directory → disk'.get? location = some .directory)
    (h : disk.place path rest = .ok location) : disk'.place path rest = .ok location := by
  obtain ⟨check, front, name, dir, hrest, entry, hlocation⟩ := place_eq_ok.mp h
  exact place_eq_ok.mpr ⟨check, front, name, dir, hrest, start_eq same path ▸ entry.mono more, hlocation⟩

lemma place_of_createFile (h : createFile path disk = .ok location disk') :
    disk.place path (segments path) = .ok location := by
  unfold createFile at h
  split at h
  · cases h
  · rename_i made place
    split at h
    · cases h
    · cases h
      exact place

/-- The place that a path names is its destination. -/
lemma destination_of_place (h : disk.place path rest = .ok location) :
    location = destination (disk.start path) rest := by
  obtain ⟨_, front, name, dir, rfl, entry, rfl⟩ := place_eq_ok.mp h
  rw [destination_append, ← entry.leads.destination]
  exact (advance_name entry.named entry.down).symm

lemma start_append (disk : Disk) (directory : String) (unrooted : Path.isRooted path = false) :
    disk.start (Path.append directory path) = disk.start directory := by
  rw [start, Path.isRooted_append directory unrooted, start]

/-- A relative path that never leads back names a place below the directory it is put behind. -/
lemma location_of_place_append {directory : String} (unrooted : Path.isRooted path = false)
    (down : ".." ∉ names path) (h : disk.place (Path.append directory path)
      (segments (Path.append directory path)) = .ok location) :
    location = destination (disk.start directory) (segments directory) ++ names path := by
  rw [destination_of_place h, start_append disk directory unrooted, destination_segments,
    Path.names_append directory unrooted, destination_append, destination_names down, destination_segments]

/-- What lies directly below a directory, behind a path to it, has that directory for a parent. -/
lemma isDirectory_parent {dir : String} (h : disk.place path (segments path) = .ok location)
    (parent : Path.IsParent dir path) (nonempty : dir ≠ "") : disk.isDirectory dir = true := by
  obtain ⟨check, front, name, above, hsegments, entry, _⟩ := place_eq_ok.mp h
  have hnames : names dir = front.filter (!isIdle ·) := by
    rw [parent.names, Path.names_of_segments hsegments entry.named, List.dropLast_concat]
  have start : disk.start dir = disk.start path := by rw [Disk.start, parent.rooted, Disk.start]
  have leads : disk.Leads (disk.start dir) (segments dir) above := by
    rw [← leads_names, hnames, leads_filter, start]
    exact entry.leads
  exact isDirectory_iff.mpr ⟨checkPath_of_front parent.front nonempty check, above, leads⟩

lemma contains_of_find {found : Location × Node} (h : disk.find path = .ok found) : disk.contains path = true := by
  unfold contains
  rw [h]

end Entry

end Polyadic.Disk
