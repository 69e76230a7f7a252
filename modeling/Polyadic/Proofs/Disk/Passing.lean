import Polyadic.Proofs.Disk.Files

/-!
# Ways with missing directories

Segments are passable if no file is in their way and no name on it is too long (`Passable`). They lead to a
directory then, or one is missing (`follow_passable`). Making directories along the names of such a path makes
those that are missing, and nothing else (`Paved`, `makeDirectories_of_passable`), also those before its last name
(`makeParent_of_passable`).
-/

namespace Polyadic.Disk

open Polyadic.Path (isIdle names segments EndsInName)

variable {disk disk' disk₁ : Disk} {path name segment : String} {location start : Location}
  {front back rest below : List String}

/-- A segment leads from a location to a directory, or to where one can be made. -/
def Admits (disk : Disk) (location : Location) (segment : String) : Prop :=
  isIdle segment = true ∨ segment = ".." ∨ segment.utf8ByteSize ≤ maxNameLength ∧
    (disk.get? (location ++ [segment]) = none ∨ disk.get? (location ++ [segment]) = some .directory)

/-- Segments lead from a location through directories and to where some can be made. -/
def Passable (disk : Disk) : Location → List String → Prop
  | _, [] => True
  | location, segment :: rest => disk.Admits location segment ∧ disk.Passable (advance location segment) rest

/-- A name on the way leads down to the location. -/
def OnWay (start : Location) (rest : List String) (location : Location) : Prop :=
  ∃ front name, front ++ [name] <+: rest ∧ isIdle name = false ∧ name ≠ ".." ∧
    location = destination start front ++ [name]

/-! ## Passable segments -/

lemma Admits.of_grows (h : disk.Admits location segment) (grown : Grows disk disk') :
    disk'.Admits location segment := by
  refine h.imp_right fun h => h.imp_right fun ⟨fits, here⟩ => ⟨fits, ?_⟩
  obtain same | ⟨_, made⟩ := grown.only (location ++ [segment])
  · rwa [same]
  · exact .inr made

lemma passable_append : disk.Passable location (front ++ back) ↔
    disk.Passable location front ∧ disk.Passable (destination location front) back := by
  induction front generalizing location with
  | nil => exact (and_iff_right trivial).symm
  | cons segment front ih =>
    rw [List.cons_append, Passable, ih, Passable, and_assoc]
    rfl

/-- Segments that say nothing do not matter. -/
lemma passable_filter : disk.Passable location (rest.filter (!isIdle ·)) ↔ disk.Passable location rest := by
  induction rest generalizing location with
  | nil => exact Iff.rfl
  | cons segment rest ih =>
    cases idle : isIdle segment with
    | true =>
      rw [List.filter_cons_of_neg (by simp [idle]), ih, Passable, advance_idle idle]
      exact (and_iff_right (.inl idle)).symm
    | false => rw [List.filter_cons_of_pos (by simp [idle]), Passable, ih, Passable]

/-- Where a way leads after directories were made, it was passable before. -/
lemma passable_of_leads {location' : Location} (only : ∀ location, disk'.get? location = some .directory →
    disk.get? location = none ∨ disk.get? location = some .directory) (h : disk'.Leads location rest location') :
    disk.Passable location rest := by
  induction rest generalizing location with
  | nil => trivial
  | cons segment rest ih =>
    obtain ⟨opens, h⟩ := leads_cons.mp h
    exact ⟨opens.imp_right fun opens => opens.imp_right fun ⟨fits, there⟩ => ⟨fits, only _ there⟩, ih h⟩

/-- Passable segments lead to their destination, or a directory is missing. -/
lemma follow_passable (h : disk.Passable location rest) :
    disk.Leads location rest (destination location rest) ∨ disk.follow location rest = .error .notFound := by
  induction rest generalizing location with
  | nil => exact .inl rfl
  | cons segment rest ih =>
    obtain ⟨admits, h⟩ := h
    by_cases opens : disk.Opens location segment
    · rw [Leads, follow_opens opens]
      exact ih h
    · right
      rw [Opens, not_or, not_or] at opens
      obtain ⟨named, down, closed⟩ := opens
      obtain ⟨fits, here⟩ := (admits.resolve_left named).resolve_left down
      have missing := here.resolve_right fun there => closed ⟨fits, there⟩
      rw [follow, if_neg named, if_neg down, if_neg (Nat.not_lt.mpr fits), missing]

/-! ## Making what is missing -/

/-- What making directories along names leaves: they lead all the way, and only places on it are different. -/
structure Paved (disk : Disk) (start : Location) (names : List String) (disk' : Disk) : Prop where
  grows : Grows disk disk'
  leads : disk'.Leads start names (destination start names)
  elsewhere : ∀ location, ¬ OnWay start names location → disk'.get? location = disk.get? location

lemma Leads.concat {dir : Location} (leads : disk.Leads start front dir) (opens : disk.Opens dir name) :
    disk.Leads start (front ++ [name]) (advance dir name) :=
  leads_append.mpr ⟨dir, leads, leads_cons.mpr ⟨opens, rfl⟩⟩

lemma place_of_missing (check : checkPath path = .ok ())
    (missing : disk.follow (disk.start path) front = .error .notFound) :
    disk.place path (front ++ [name]) = .error .notFound := by
  unfold place
  rw [check, List.dropLast_concat]
  show (disk.follow (disk.start path) front >>= _) = _
  rw [missing]
  rfl

section Last

variable (hsegments : segments path = front ++ [name]) (named : isIdle name = false)

include hsegments named

lemma trimmed_segments : ((segments path).reverse.dropWhile (· == "")).reverse = segments path := by
  have some : ¬ (name == "") = true := by
    rw [beq_iff_eq]
    rintro rfl
    cases named
  rw [hsegments, List.reverse_append, List.reverse_singleton, List.singleton_append,
    List.dropWhile_cons_of_neg (p := (· == "")) some, List.reverse_cons, List.reverse_reverse]

lemma makeDirectory_of_missing (missing : disk.place path (segments path) = .error .notFound) :
    makeDirectory path disk = .error .notFound disk := by
  unfold makeDirectory
  rw [trimmed_segments hsegments named]
  dsimp only
  rw [missing]

lemma makeDirectory_of_free (place : disk.place path (segments path) = .ok location)
    (free : disk.get? location = none) : makeDirectory path disk = .ok () (disk.set location .directory) := by
  unfold makeDirectory
  rw [trimmed_segments hsegments named]
  dsimp only
  rw [place]
  simp only [free]

/-- Where everything up to the last name is there, the last directory is there too or can be made. -/
lemma Paved.makeLast (hfront : front.filter (!isIdle ·) = below)
    (paved : Paved disk (disk.start path) below disk₁) (check : checkPath path = .ok ())
    (admits : disk.Admits (destination (disk.start path) below) name) :
    ∃ disk', Paved disk (disk.start path) (below ++ [name]) disk' ∧
      (makeDirectory path disk₁ = .ok () disk' ∨ disk' = disk₁ ∧ disk₁.isDirectory path = true) := by
  obtain ⟨dir, hdir⟩ : ∃ dir, dir = destination (disk.start path) below := ⟨_, rfl⟩
  have whole : destination (disk.start path) (below ++ [name]) = advance dir name := by
    rw [destination_append, hdir]
    rfl
  have leads : disk₁.Leads (disk.start path) below dir := hdir ▸ paved.leads
  have leads' : disk₁.Leads (disk₁.start path) front dir := by
    rwa [← leads_filter, hfront, start_eq paved.grows.workingDirectory]
  have before (location : Location) (other : ¬ OnWay (disk.start path) (below ++ [name]) location) :
      disk₁.get? location = disk.get? location :=
    paved.elsewhere location fun ⟨front, name', initial, way⟩ =>
      other ⟨front, name', initial.trans (List.prefix_append _ _), way⟩
  rw [← hdir] at admits
  by_cases opens : disk₁.Opens dir name
  · refine ⟨disk₁, ⟨paved.grows, whole ▸ leads.concat opens, before⟩, .inr ⟨rfl, ?_⟩⟩
    rw [isDirectory_iff, hsegments]
    exact ⟨check, _, leads'.concat opens⟩
  · rw [Opens, not_or, not_or] at opens
    obtain ⟨_, down, closed⟩ := opens
    obtain ⟨fits, here⟩ := ((admits.of_grows paved.grows).resolve_left (by simp [named])).resolve_left down
    have free := here.resolve_right fun there => closed ⟨fits, there⟩
    have place : disk₁.place path (segments path) = .ok (dir ++ [name]) :=
      place_eq_ok.mpr ⟨check, front, name, dir, hsegments, ⟨leads', named, down, fits⟩, rfl⟩
    have nonempty := ne_nil_of_place place
    have made := Grows.set_directory nonempty free
    have opens : (disk₁.set (dir ++ [name]) .directory).Opens dir name :=
      .inr (.inr ⟨fits, by rw [get?_set nonempty, if_pos rfl]⟩)
    refine ⟨_, ⟨paved.grows.trans made, ?_, fun location other => ?_⟩,
      .inl (makeDirectory_of_free hsegments named place free)⟩
    · rw [whole]
      exact (leads.mono fun _ => made.of_some).concat opens
    · rw [get?_set nonempty, if_neg, before location other]
      rintro rfl
      exact other ⟨below, name, List.prefix_rfl, named, down, by rw [hdir]⟩

end Last

/-- A directory to which a path leads need not be made. -/
lemma makeDirectories_of_leads (check : path ≠ "" → checkPath path = .ok ())
    (leads : disk.Leads (disk.start path) (names path) location) : makeDirectories path disk = .ok () disk := by
  by_cases empty : path = ""
  · subst empty
    rfl
  · exact makeDirectories_of_isDirectory (isDirectory_iff.mpr ⟨check empty, location, leads_names.mp leads⟩)

/-- The parent of a path has all its names but the last. -/
lemma exists_parent (check : checkPath path = .ok ()) (hnames : names path = below ++ [name]) (disk : Disk) :
    ∃ dir, Path.parent? path = some dir ∧ names dir = below ∧ (dir ≠ "" → checkPath dir = .ok ()) ∧
      (names dir ≠ [] → EndsInName dir) ∧ disk.start dir = disk.start path := by
  obtain ⟨dir, parent⟩ := Path.exists_parent? (by simp [hnames] : names path ≠ [])
  have hdir := Path.isParent_of_parent? parent
  refine ⟨dir, parent, ?_, fun some => checkPath_of_front hdir.front some check, hdir.ends, ?_⟩
  · rw [hdir.names, hnames, List.dropLast_concat]
  · rw [start, hdir.rooted, start]

/-- The directories on a passable way can be made. -/
theorem makeDirectories_of_passable (check : path ≠ "" → checkPath path = .ok ())
    (ends : names path ≠ [] → EndsInName path) (passable : disk.Passable (disk.start path) (names path)) :
    ∃ disk', makeDirectories path disk = .ok () disk' ∧ Paved disk (disk.start path) (names path) disk' := by
  -- Down the way from its end: a directory can be made once those before it are there.
  obtain ⟨below, hnames⟩ : ∃ below, names path = below := ⟨_, rfl⟩
  induction below using List.reverseRecOn generalizing path with
  | nil =>
    have leads : disk.Leads (disk.start path) (names path) (disk.start path) := by
      rw [hnames]
      rfl
    rw [hnames]
    exact ⟨disk, makeDirectories_of_leads check leads, .refl disk, rfl, fun _ _ => rfl⟩
  | append_singleton below name ih =>
    have some : names path ≠ [] := by simp [hnames]
    obtain ⟨front, last, hsegments, named, hlast⟩ := Path.exists_segments_concat (ends some)
    obtain ⟨hfront, same⟩ := List.append_inj' (hlast.symm.trans hnames) rfl
    obtain rfl := List.singleton_inj.mp same
    have nonempty : path ≠ "" := by
      rintro rfl
      exact some rfl
    have check := check nonempty
    obtain ⟨dir, parent, dirNames, dirCheck, dirEnds, start⟩ := exists_parent check hnames disk
    rw [hnames] at passable ⊢
    obtain ⟨passable, admits, _⟩ := passable_append.mp passable
    have first : makeDirectories path = makeFirst (path :: Path.ancestors dir) := by
      rw [makeDirectories, Path.ancestors_of_some parent]
    rw [first, makeFirst_cons nonempty]
    obtain leads | missing := follow_passable (passable_filter.mp (hfront ▸ passable))
    · -- All but the last directory are there.
      have paved : Paved disk (disk.start path) below disk := by
        refine ⟨.refl disk, ?_, fun _ _ => rfl⟩
        rw [← hfront, leads_filter, destination_filter]
        exact leads
      obtain ⟨disk', paved', made | ⟨rfl, there⟩⟩ := paved.makeLast hsegments named hfront check admits
      · exact ⟨disk', tryCatch_of_ok made, paved'⟩
      · refine ⟨disk', ?_, paved'⟩
        rw [← makeFirst_cons nonempty, ← first, makeDirectories_of_isDirectory there]
    · have missing := makeDirectory_of_missing hsegments named (hsegments ▸ place_of_missing check missing)
      obtain ⟨disk₁, above, paved⟩ := ih dirCheck dirEnds (by rwa [start, dirNames]) dirNames
      have above : makeFirst (Path.ancestors dir) disk = .ok () disk₁ := above
      rw [start, dirNames] at paved
      obtain ⟨disk', paved', made⟩ := paved.makeLast hsegments named hfront check admits
      refine ⟨disk', ?_, paved'⟩
      rw [tryCatch_of_error missing, if_pos rfl, Session.bind_of_ok above]
      obtain made | ⟨rfl, there⟩ := made
      · exact tryCatch_of_ok made
      · obtain ⟨e, refused, _⟩ := makeDirectory_of_isDirectory there
        rw [tryCatch_of_error refused, settle, if_pos there]

/-- The directories before the last name of a path can be made if they are on a passable way. -/
theorem makeParent_of_passable (check : checkPath path = .ok ()) (hnames : names path = below ++ [name])
    (passable : disk.Passable (disk.start path) below) :
    ∃ disk', makeParent path disk = .ok () disk' ∧ Paved disk (disk.start path) below disk' := by
  obtain ⟨dir, parent, rfl, dirCheck, dirEnds, start⟩ := exists_parent check hnames disk
  rw [← start] at passable ⊢
  unfold makeParent
  rw [parent]
  exact makeDirectories_of_passable dirCheck dirEnds passable

end Polyadic.Disk
