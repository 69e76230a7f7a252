import Polyadic.Proofs.Disk.Passing

/-!
# Writing where nothing is

Below a directory in which no file is in the way (`Clear`), a path that leads down is passable (`Clear.passable`),
and making the directories on the way to it leaves nothing different anywhere else (`Opened`). So a file can be
written there if its path ends in a name (`writeFile_below`).
-/

namespace Polyadic.Disk

open Polyadic.Path (isIdle names segments EndsInName)

variable {disk disk' : Disk} {path : String} {location start base : Location} {pre below rest : List String}

/-- Names that lead down from a location through directories or where nothing is. -/
structure Clear (disk : Disk) (base : Location) (below : List String) : Prop where
  down : ".." ∉ below
  fits : ∀ name ∈ below, name.utf8ByteSize ≤ maxNameLength
  free : ∀ front, front ≠ [] → front <+: below →
    disk.get? (base ++ front) = none ∨ disk.get? (base ++ front) = some .directory

lemma Clear.front {front back : List String} (h : Clear disk base (front ++ back)) : Clear disk base front :=
  ⟨fun mem => h.down (List.mem_append_left _ mem), fun _ mem => h.fits _ (List.mem_append_left _ mem),
    fun front' some initial => h.free front' some (initial.trans (List.prefix_append _ _))⟩

section Last

variable {front : List String} {name : String}

/-- The segments of a path that ends in a name, by its names. -/
lemma exists_segments_below (hnames : names path = pre ++ (below ++ [name])) (ends : EndsInName path) :
    ∃ front, segments path = front ++ [name] ∧ isIdle name = false ∧
      front.filter (!isIdle ·) = pre ++ below := by
  obtain ⟨front, last, hsegments, named, hlast⟩ := Path.exists_segments_concat ends
  rw [hnames, ← List.append_assoc] at hlast
  obtain ⟨hfront, same⟩ := List.append_inj' hlast rfl
  obtain rfl := List.singleton_inj.mp same
  exact ⟨front, hsegments, named, hfront.symm⟩

lemma Clear.named_down (clear : Clear disk base (below ++ [name])) :
    name ≠ ".." ∧ name.utf8ByteSize ≤ maxNameLength := by
  have mem : name ∈ below ++ [name] := List.mem_append_right _ List.mem_cons_self
  refine ⟨?_, clear.fits name mem⟩
  rintro rfl
  exact clear.down mem

end Last

/-- What making directories along a path leaves: they lead all the way, and nothing else is different. -/
structure Opened (disk : Disk) (start : Location) (pre : List String) (base : Location) (below : List String)
    (disk' : Disk) : Prop where
  grows : Grows disk disk'
  leads : disk'.Leads start (pre ++ below) (base ++ below)
  elsewhere : ∀ location, (∀ front, front <+: below → location ≠ base ++ front) →
    disk'.get? location = disk.get? location

/-- Nothing has changed behind the directories on the way. -/
lemma Opened.behind (opened : Opened disk start pre base below disk') (name : String) :
    disk'.get? (base ++ (below ++ [name])) = disk.get? (base ++ (below ++ [name])) := by
  refine opened.elsewhere _ fun front initial same => ?_
  have short := initial.length_le
  rw [← List.append_cancel_left same, List.length_append] at short
  exact Nat.not_succ_le_self _ short

/-- Where the directories before it are made, a path names its place. -/
lemma Opened.place {front : List String} {name : String}
    (opened : Opened disk (disk.start path) pre base below disk') (check : checkPath path = .ok ())
    (hsegments : segments path = front ++ [name]) (named : isIdle name = false)
    (hfront : front.filter (!isIdle ·) = pre ++ below) (clear : Clear disk base (below ++ [name])) :
    disk'.Leads (disk'.start path) front (base ++ below) ∧
      disk'.place path (segments path) = .ok (base ++ (below ++ [name])) := by
  obtain ⟨down, fits⟩ := clear.named_down
  have leads : disk'.Leads (disk'.start path) front (base ++ below) := by
    rw [← leads_filter, hfront, start_eq opened.grows.workingDirectory]
    exact opened.leads
  rw [← List.append_assoc]
  exact ⟨leads, place_eq_ok.mpr ⟨check, front, name, _, hsegments, ⟨leads, named, down, fits⟩, rfl⟩⟩

/-- A clear way down is passable. -/
lemma Clear.passable (clear : Clear disk base below) (named : ∀ name ∈ below, isIdle name = false) :
    disk.Passable base below := by
  induction below generalizing base with
  | nil => trivial
  | cons name below ih =>
    obtain ⟨own, named⟩ := List.forall_mem_cons.mp named
    have down : name ≠ ".." := fun up => clear.down (up ▸ List.mem_cons_self)
    refine ⟨.inr (.inr ⟨clear.fits name List.mem_cons_self, ?_⟩), ?_⟩
    · exact clear.free [name] (List.cons_ne_nil _ _) (List.prefix_append [name] _)
    · rw [advance_name own down]
      refine ih ⟨fun mem => clear.down (List.mem_cons_of_mem _ mem),
        fun name mem => clear.fits name (List.mem_cons_of_mem _ mem), fun front some initial => ?_⟩ named
      rw [List.append_assoc]
      exact clear.free (name :: front) (List.cons_ne_nil _ _) (List.cons_prefix_cons.mpr ⟨rfl, initial⟩)

/-- A clear way down is passable behind a way to the directory from which it starts. -/
lemma Clear.passable_behind (clear : Clear disk base below) (leads : disk.Leads start pre base)
    (named : ∀ name ∈ below, isIdle name = false) : disk.Passable start (pre ++ below) := by
  rw [passable_append, ← leads.destination]
  exact ⟨passable_of_leads (fun _ => .inr) leads, clear.passable named⟩

/-- Behind a way to a directory, what making directories leaves is different only below that directory. -/
lemma Paved.opened (paved : Paved disk start (pre ++ below) disk') (leads : disk.Leads start pre base)
    (named : ∀ name ∈ below, isIdle name = false) (down : ".." ∉ below) :
    Opened disk start pre base below disk' := by
  have behind {front : List String} (initial : front <+: below) :
      destination start (pre ++ front) = base ++ front := by
    rw [destination_append, ← leads.destination]
    exact destination_of_down (fun name mem => named name (initial.subset mem)) fun mem => down (initial.subset mem)
  refine ⟨paved.grows, behind List.prefix_rfl ▸ paved.leads, fun location others => ?_⟩
  by_cases way : OnWay start (pre ++ below) location
  · obtain ⟨front, name, initial, hname, hdown, rfl⟩ := way
    obtain first | ⟨back, hback⟩ := List.prefix_or_prefix_of_prefix initial (List.prefix_append pre below)
    -- A directory on the way to the base is there already.
    · obtain ⟨back, rfl⟩ := first
      rw [List.append_assoc] at leads
      obtain ⟨dir, leads, rest⟩ := leads_append.mp leads
      obtain ⟨_, there⟩ := ((leads_cons.mp rest).1.resolve_left (by simp [hname])).resolve_left hdown
      rw [leads.destination] at there
      rw [paved.grows.of_some there, there]
    · rw [← hback] at initial
      refine absurd ?_ (others back ((List.prefix_append_right_inj pre).mp initial))
      rw [← behind ((List.prefix_append_right_inj pre).mp initial), hback, destination_append]
      exact (advance_name hname hdown).symm
  · exact paved.elsewhere location way

/-- A file can be written at the end of a clear way down, behind the directories that are made for it. -/
theorem writeFile_below {name : String} (check : checkPath path = .ok ())
    (hnames : names path = pre ++ (below ++ [name])) (ends : EndsInName path)
    (leads : disk.Leads (disk.start path) pre base) (clear : Clear disk base (below ++ [name]))
    (free : disk.get? (base ++ (below ++ [name])) ≠ some .directory) (content : ByteArray) :
    ∃ disk₁, Opened disk (disk.start path) pre base below disk₁ ∧
      writeFile path content disk = .ok () (disk₁.set (base ++ (below ++ [name])) (.file content)) := by
  have idle : ∀ name' ∈ below, isIdle name' = false := fun name' mem =>
    isIdle_of_mem_names (hnames ▸ by simp [mem] : name' ∈ names path)
  obtain ⟨disk₁, made, paved⟩ := makeParent_of_passable check
    (hnames.trans (List.append_assoc pre below [name]).symm) (clear.front.passable_behind leads idle)
  have opened := paved.opened leads idle clear.front.down
  obtain ⟨front, hsegments, named, hfront⟩ := exists_segments_below hnames ends
  obtain ⟨_, place⟩ := opened.place check hsegments named hfront clear
  rw [← opened.behind name] at free
  exact ⟨disk₁, opened, writeFile_of_makeParent made place free content⟩

end Polyadic.Disk
