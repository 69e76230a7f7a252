import Polyadic.Path
import Mathlib

/-!
# Segments of paths

What the operations on paths do to the segments of a path, and to the segments among them that say something
(`names`). A path put behind another one has the names of both (`names_append`), the parent of a path lacks
its last name (`parent?_cases`), and the ancestors of a path are itself and those of its parent
(`ancestors_of_some`).
-/

namespace Polyadic.Path

/-- The segments of a path that say something. -/
def names (path : String) : List String :=
  (segments path).filter (!isIdle ·)

/-- The last segment of the path says something: there is no slash and no `.` at its end. -/
def EndsInName (path : String) : Prop :=
  (segments path).getLast?.any (!isIdle ·) = true

instance (path : String) : Decidable (EndsInName path) :=
  inferInstanceAs (Decidable (_ = true))

/-! ## Texts and segments -/

section Segments

variable {path : String} {front back : List String} {first : String} {rest : List String}

lemma segments_ne_nil (path : String) : segments path ≠ [] :=
  fun h => Text.split_ne_nil _ _ (List.map_eq_nil_iff.mp h)

lemma exists_segments (path : String) : ∃ first rest, segments path = first :: rest :=
  List.exists_cons_of_ne_nil (segments_ne_nil path)

lemma not_mem_of_mem_segments {segment : String} (h : segment ∈ segments path) : '/' ∉ segment.toList := by
  obtain ⟨piece, hpiece, rfl⟩ := List.mem_map.mp h
  rw [String.toList_ofList]
  intro hc
  exact absurd (Text.mem_of_mem_split hpiece hc).2 (by decide)

lemma ofSegments_segments (path : String) : ofSegments (segments path) = path := by
  have inverse : String.toList ∘ String.ofList = id := funext fun _ => String.toList_ofList
  rw [ofSegments, segments, List.map_map, inverse, List.map_id, Text.join_split, String.ofList_toList]

lemma segments_injective : Function.Injective segments := by
  intro path path' h
  rw [← ofSegments_segments path, h, ofSegments_segments]

lemma segments_ofSegments (nonempty : front ≠ []) (h : ∀ segment ∈ front, '/' ∉ segment.toList) :
    segments (ofSegments front) = front := by
  have inverse : String.ofList ∘ String.toList = id := funext fun _ => String.ofList_toList
  rw [segments, ofSegments, String.toList_ofList, Text.split_join (by simpa using nonempty) (by simpa using h),
    List.map_map, inverse, List.map_id]

lemma segments_slash (first second : String) :
    segments (first ++ "/" ++ second) = segments first ++ segments second := by
  have slash : (first ++ "/" ++ second).toList = first.toList ++ '/' :: second.toList := by
    rw [String.toList_append, String.toList_append, List.append_assoc]
    rfl
  rw [segments, slash, Text.split_append (p := (· == '/')) rfl, List.map_append, segments, segments]

/-- A path is cut in two wherever its segments are. -/
lemma eq_slash_of_segments (h : segments path = front ++ back) (hfront : front ≠ []) (hback : back ≠ []) :
    path = ofSegments front ++ "/" ++ ofSegments back := by
  have plain (segment : String) (hmem : segment ∈ front ++ back) : '/' ∉ segment.toList :=
    not_mem_of_mem_segments (h ▸ hmem)
  apply segments_injective
  rw [segments_slash, segments_ofSegments hfront fun s hs => plain s (List.mem_append_left back hs),
    segments_ofSegments hback fun s hs => plain s (List.mem_append_right front hs), h]

/-- A path is rooted when its first segment is empty and not the only one. -/
lemma isRooted_iff (h : segments path = first :: rest) : isRooted path = true ↔ first = "" ∧ rest ≠ [] := by
  unfold segments at h
  rw [isRooted, beq_iff_eq]
  cases htext : path.toList with
  | nil =>
    rw [htext] at h
    cases h
    exact ⟨nofun, fun ⟨_, other⟩ => absurd rfl other⟩
  | cons c text =>
    rw [htext] at h
    by_cases hc : c = '/'
    · rw [hc, Text.split_cons_of_pos rfl] at h
      obtain ⟨rfl, rfl⟩ := List.cons.inj h
      have others : (Text.split (· == '/') text).map String.ofList ≠ [] :=
        fun empty => Text.split_ne_nil _ text (List.map_eq_nil_iff.mp empty)
      exact ⟨fun _ => ⟨rfl, others⟩, fun _ => congrArg some hc⟩
    · obtain ⟨piece, pieces, _, hsplit⟩ := Text.split_cons_of_neg (p := (· == '/')) (by simpa using hc) text
      rw [hsplit] at h
      obtain ⟨rfl, rfl⟩ := List.cons.inj h
      constructor
      · intro root
        exact absurd (Option.some.inj root) hc
      · rintro ⟨empty, _⟩
        exact absurd (congrArg String.toList empty) (by simp)

end Segments

/-! ## A path behind another -/

section Append

variable {path : String} (base : String)

/-- The segments of the first path come first, but for an empty one at its end. -/
lemma segments_append (unrooted : isRooted path = false) :
    ∃ front, segments (append base path) = front ++ segments path ∧
      (segments base = front ∨ segments base = front ++ [""]) := by
  unfold append
  rw [unrooted, Bool.false_or]
  split
  · rename_i empty
    rw [String.isEmpty_iff.mp empty]
    exact ⟨[], rfl, .inr rfl⟩
  · split
    · rename_i slash
      obtain ⟨text, htext⟩ := List.getLast?_eq_some_iff.mp (beq_iff_eq.mp slash)
      have cut : base = String.ofList text ++ "/" ++ "" := by
        apply String.toList_injective
        rw [htext, String.append_empty, String.toList_append, String.toList_ofList]
        rfl
      refine ⟨segments (String.ofList text), ?_, .inr ?_⟩
      · rw [cut, String.append_empty, segments_slash]
      · rw [cut, segments_slash]
        rfl
    · exact ⟨segments base, segments_slash base path, .inl rfl⟩

lemma names_append (unrooted : isRooted path = false) :
    names (append base path) = names base ++ names path := by
  obtain ⟨front, happend, hbase⟩ := segments_append base unrooted
  have same : front.filter (!isIdle ·) = names base := by
    obtain h | h := hbase
    · rw [names, h]
    · rw [names, h, List.filter_append]
      exact (List.append_nil _).symm
  rw [← same, names, happend, List.filter_append, names]

lemma getLast?_segments_append (unrooted : isRooted path = false) :
    (segments (append base path)).getLast? = (segments path).getLast? := by
  obtain ⟨front, happend, _⟩ := segments_append base unrooted
  rw [happend, List.getLast?_append, List.getLast?_eq_some_getLast (segments_ne_nil path), Option.some_or]

lemma endsInName_append (unrooted : isRooted path = false) :
    EndsInName (append base path) ↔ EndsInName path := by
  rw [EndsInName, getLast?_segments_append base unrooted, EndsInName]

lemma isRooted_append (unrooted : isRooted path = false) : isRooted (append base path) = isRooted base := by
  unfold append
  rw [unrooted, Bool.false_or]
  split
  · rename_i empty
    rw [String.isEmpty_iff.mp empty, unrooted]
    rfl
  · rename_i nonempty
    have first (text : String) : isRooted (base ++ text) = isRooted base := by
      cases hbase : base.toList with
      | nil => exact absurd (String.toList_eq_nil_iff.mp hbase) (mt String.isEmpty_iff.mpr nonempty)
      | cons c rest => rw [isRooted, isRooted, String.toList_append, hbase, List.cons_append]; rfl
    split
    · exact first path
    · rw [String.append_assoc]
      exact first _

/-- A last segment that says something is the last name. -/
lemma names_of_segments {name : String} (h : segments path = front ++ [name]) (named : isIdle name = false) :
    names path = front.filter (!isIdle ·) ++ [name] := by
  rw [names, h, List.filter_append, List.filter_cons_of_pos (by simp [named]), List.filter_nil]

/-- The last segment of a path that ends in a name is its last name. -/
lemma exists_segments_concat (ends : EndsInName path) :
    ∃ front name, segments path = front ++ [name] ∧ isIdle name = false ∧
      names path = front.filter (!isIdle ·) ++ [name] := by
  obtain ⟨front, name, h⟩ := List.eq_nil_or_concat' _ |>.resolve_left (segments_ne_nil path)
  rw [EndsInName, h, List.getLast?_concat, Option.any_some, Bool.not_eq_true'] at ends
  exact ⟨front, name, h, ends, names_of_segments h ends⟩

end Append

/-! ## Parents and ancestors -/

/-- The second path leads to what the first one lies in, by its text alone. -/
structure IsParent (dir path : String) : Prop where
  names : names dir = (names path).dropLast
  rooted : isRooted dir = isRooted path
  front : dir.toList <+: path.toList
  ends : Path.names dir ≠ [] → EndsInName dir
  shorter : (components dir).length < (components path).length

section Parent

variable {path first name : String} {rest kept middle after : List String}

lemma exists_last_name (rest : List String) : (∀ s ∈ rest, isIdle s = true) ∨
    ∃ before name after, rest = before ++ name :: after ∧ isIdle name = false ∧
      ∀ s ∈ after, isIdle s = true := by
  induction rest with
  | nil => exact .inl nofun
  | cons segment rest ih =>
    obtain idle | ⟨before, name, after, rfl, hname, idle⟩ := ih
    · cases hs : isIdle segment with
      | true => exact .inl (List.forall_mem_cons.mpr ⟨hs, idle⟩)
      | false => exact .inr ⟨[], segment, rest, rfl, hs, idle⟩
    · exact .inr ⟨segment :: before, name, after, rfl, hname, idle⟩

lemma filter_of_idle (idle : ∀ s ∈ rest, isIdle s = true) : rest.filter (!isIdle ·) = [] := by
  rw [List.filter_eq_nil_iff]
  intro s hs
  rw [idle s hs]
  decide

lemma dropWhile_reverse (hname : isIdle name = false) (idle : ∀ s ∈ after, isIdle s = true) :
    (kept ++ name :: after).reverse.dropWhile isIdle = name :: kept.reverse := by
  have front : ∀ s ∈ after.reverse, isIdle s = true := fun s hs => idle s (List.mem_reverse.mp hs)
  rw [List.reverse_append, List.reverse_cons, List.append_assoc, List.dropWhile_append_of_pos front,
    List.singleton_append, List.dropWhile_cons_of_neg (by simp [hname])]

lemma length_components (h : segments path = first :: rest) (some : first ≠ "" ∨ rest ≠ []) :
    (components path).length = (rest.filter (!isIdle ·)).length + 1 := by
  have later : ∀ rest : List String, (rest.map component).length = rest.length := fun _ => List.length_map _
  rw [components, h]
  dsimp only
  split
  · rw [List.length_cons, later]
  · rename_i empty
    rw [if_neg, List.length_cons, later]
    rw [List.isEmpty_iff]
    exact some.resolve_left empty

lemma isParent_ofSegments (h : segments path = (first :: kept) ++ (middle ++ name :: after))
    (hmiddle : ∀ s ∈ middle, isIdle s = true) (hname : isIdle name = false)
    (hafter : ∀ s ∈ after, isIdle s = true) (some : first ≠ "" ∨ kept ≠ [])
    (ends : kept = [] ∨ kept.getLast?.any (!isIdle ·) = true) :
    IsParent (ofSegments (first :: kept)) path := by
  have back : middle ++ name :: after ≠ [] := by simp
  have dir : segments (ofSegments (first :: kept)) = first :: kept := by
    refine segments_ofSegments (List.cons_ne_nil first kept) fun s hs => ?_
    exact not_mem_of_mem_segments (h ▸ List.mem_append_left _ hs)
  have last : (middle ++ name :: after).filter (!isIdle ·) = [name] := by
    rw [List.filter_append, filter_of_idle hmiddle, List.filter_cons_of_pos (by simp [hname]),
      filter_of_idle hafter, List.nil_append]
  constructor
  case names =>
    rw [Path.names, dir, Path.names, h, List.filter_append, last, List.dropLast_concat]
  case rooted =>
    rw [Bool.eq_iff_iff, isRooted_iff dir, isRooted_iff h]
    refine and_congr_right fun empty => ?_
    exact iff_of_true (some.resolve_left (not_not.mpr empty)) (List.append_ne_nil_of_right_ne_nil kept back)
  case front =>
    have cut := eq_slash_of_segments h (List.cons_ne_nil first kept) back
    rw [cut, String.append_assoc, String.toList_append]
    exact List.prefix_append _ _
  case ends =>
    intro some
    rw [EndsInName, dir]
    obtain rfl | ends := ends
    · rw [Path.names, dir] at some
      cases hfirst : isIdle first with
      | true => exact absurd (filter_of_idle (List.forall_mem_singleton.mpr hfirst)) some
      | false =>
        rw [List.getLast?_singleton, Option.any_some, hfirst]
        rfl
    · cases kept with
      | nil => cases ends
      | cons next kept =>
        rw [List.getLast?_cons_cons]
        exact ends
  case shorter =>
    have longer : kept ++ (middle ++ name :: after) ≠ [] := List.append_ne_nil_of_right_ne_nil kept back
    rw [List.cons_append] at h
    rw [length_components dir some, length_components h (.inr longer), List.filter_append, last,
      List.length_append]
    exact Nat.lt_succ_self _

lemma isParent_slash (h : segments path = "" :: (middle ++ name :: after))
    (hmiddle : ∀ s ∈ middle, isIdle s = true) (hname : isIdle name = false)
    (hafter : ∀ s ∈ after, isIdle s = true) : IsParent "/" path := by
  have longer : middle ++ name :: after ≠ [] := by simp
  have last : (middle ++ name :: after).filter (!isIdle ·) = [name] := by
    rw [List.filter_append, filter_of_idle hmiddle, List.filter_cons_of_pos (by simp [hname]),
      filter_of_idle hafter, List.nil_append]
  have rooted : isRooted path = true := (isRooted_iff h).mpr ⟨rfl, longer⟩
  constructor
  case names =>
    rw [Path.names, Path.names, h, List.filter_cons_of_neg (by decide), last]
    rfl
  case rooted => rw [rooted]; rfl
  case front =>
    obtain ⟨text, htext⟩ := List.head?_eq_some_iff.mp (beq_iff_eq.mp rooted)
    rw [htext]
    exact ⟨text, rfl⟩
  case ends => exact fun some => absurd rfl some
  case shorter =>
    have root : (components "/").length = 1 := by decide
    rw [length_components h (.inr longer), last, root]
    exact Nat.lt_succ_self 1

/-- A path has a parent unless it has no name, and the parent lacks its last name. -/
theorem parent?_cases (path : String) :
    (parent? path = none ∧ names path = []) ∨ ∃ dir, parent? path = some dir ∧ IsParent dir path := by
  obtain ⟨first, rest, h⟩ := exists_segments path
  unfold parent?
  rw [h]
  dsimp only
  obtain idle | ⟨before, name, after, rfl, hname, hafter⟩ := exists_last_name rest
  -- Nothing but the first segment counts, and what it lies in is where the path starts.
  · have dropped : rest.reverse.dropWhile isIdle = [] :=
      List.dropWhile_eq_nil_iff.mpr fun s hs => idle s (List.mem_reverse.mp hs)
    rw [dropped]
    dsimp only
    split
    · rename_i empty
      refine .inl ⟨rfl, ?_⟩
      rw [names, h, empty]
      exact filter_of_idle (List.forall_mem_cons.mpr ⟨rfl, idle⟩)
    · rename_i nonempty
      refine .inr ⟨"", rfl, ?_, ?_, List.nil_prefix, fun some => absurd rfl some, ?_⟩
      · rw [names, names, h, List.filter_cons, filter_of_idle idle]
        split <;> rfl
      · have unrooted := mt (isRooted_iff h).mp fun ⟨empty, _⟩ => nonempty empty
        rw [Bool.eq_false_of_not_eq_true unrooted]
        rfl
      · rw [length_components h (.inl nonempty)]
        exact Nat.succ_pos _
  · rw [dropWhile_reverse hname hafter]
    dsimp only
    obtain idle | ⟨kept, last, middle, rfl, hlast, hmiddle⟩ := exists_last_name before
    · have dropped : before.reverse.dropWhile isIdle = [] :=
        List.dropWhile_eq_nil_iff.mpr fun s hs => idle s (List.mem_reverse.mp hs)
      rw [dropped]
      by_cases nonempty : first ≠ ""
      · refine .inr ⟨ofSegments [first], ?_, isParent_ofSegments h idle hname hafter (.inl nonempty) (.inl rfl)⟩
        split
        · contradiction
        · rfl
      · obtain rfl := not_not.mp nonempty
        exact .inr ⟨"/", rfl, isParent_slash h idle hname hafter⟩
    · rw [dropWhile_reverse hlast hmiddle]
      have ends : (kept ++ [last]).getLast?.any (!isIdle ·) = true := by
        rw [List.getLast?_concat, Option.any_some, hlast]
        rfl
      have some : kept ++ [last] ≠ [] := List.append_ne_nil_of_right_ne_nil kept (List.cons_ne_nil last [])
      refine .inr ⟨ofSegments (first :: (kept ++ [last])), ?_,
        isParent_ofSegments ?_ hmiddle hname hafter (.inr some) (.inr ends)⟩
      · split
        · contradiction
        · rw [List.reverse_cons, List.reverse_reverse]
      · rw [h]
        simp only [List.cons_append, List.append_assoc, List.nil_append]

variable {dir : String}

lemma isParent_of_parent? (h : parent? path = some dir) : IsParent dir path := by
  obtain ⟨none, _⟩ | ⟨_, some, parent⟩ := parent?_cases path
  · rw [none] at h
    cases h
  · rw [some] at h
    cases h
    exact parent

lemma exists_parent? (h : names path ≠ []) : ∃ dir, parent? path = some dir := by
  obtain ⟨_, empty⟩ | ⟨dir, some, _⟩ := parent?_cases path
  · exact absurd empty h
  · exact ⟨dir, some⟩

lemma length_components_le (path : String) : (components path).length ≤ (segments path).length := by
  obtain ⟨first, rest, h⟩ := exists_segments path
  by_cases counts : first ≠ "" ∨ rest ≠ []
  · rw [length_components h counts, h, List.length_cons]
    exact Nat.succ_le_succ (List.length_filter_le _ rest)
  · obtain ⟨rfl, rfl⟩ : first = "" ∧ rest = [] := by simpa using counts
    rw [components, h]
    exact Nat.zero_le _

lemma ancestors_go_of_none (h : parent? path = none) (n : Nat) : ancestors.go n path = [path] := by
  cases n with
  | zero => rfl
  | succ n => simp only [ancestors.go, h]

lemma ancestors_go_of_some (h : parent? path = some dir) {n : Nat} (hn : (components path).length ≤ n) :
    ∃ k, n = k + 1 ∧ (components dir).length ≤ k ∧ ancestors.go n path = path :: ancestors.go k dir := by
  have shorter := (isParent_of_parent? h).shorter
  cases n with
  | zero => omega
  | succ k => exact ⟨k, rfl, by omega, by simp only [ancestors.go, h]⟩

/-- Only the number of components limits the ancestors. -/
lemma ancestors_go_eq {n m : Nat} {path : String} (hn : (components path).length ≤ n)
    (hm : (components path).length ≤ m) : ancestors.go n path = ancestors.go m path := by
  induction n generalizing m path with
  | zero =>
    cases h : parent? path with
    | none => rw [ancestors_go_of_none h, ancestors_go_of_none h]
    | some dir =>
      obtain ⟨_, impossible, _⟩ := ancestors_go_of_some h hn
      cases impossible
  | succ n ih =>
    cases h : parent? path with
    | none => rw [ancestors_go_of_none h, ancestors_go_of_none h]
    | some dir =>
      obtain ⟨k, hk, hdir, hpath⟩ := ancestors_go_of_some h hn
      obtain ⟨l, hl, hdir', hpath'⟩ := ancestors_go_of_some h hm
      cases hk
      rw [hpath, hpath', ih hdir hdir']

lemma ancestors_of_none (h : parent? path = none) : ancestors path = [path] :=
  ancestors_go_of_none h _

/-- The ancestors of a path are itself and the ancestors of its parent. -/
theorem ancestors_of_some (h : parent? path = some dir) : ancestors path = path :: ancestors dir := by
  obtain ⟨k, _, hdir, hpath⟩ := ancestors_go_of_some h (length_components_le path)
  rw [ancestors, hpath, ancestors_go_eq hdir (length_components_le dir), ancestors]

end Parent

/-! ## File names -/

lemma component_eq_name {name : String} (hname : isIdle name = false) (down : name ≠ "..") :
    component name = .name name := by
  have dot : name ≠ "." := by
    rintro rfl
    cases hname
  rw [component, if_neg dot, if_neg down]

/-- The last component of a path says what its last name says. -/
lemma getLast?_components {path name : String} {front : List String} (h : names path = front ++ [name]) :
    (components path).getLast? = some (component name) := by
  have hname : isIdle name = false := by
    have mem : name ∈ names path := h ▸ List.mem_concat_self
    simpa using (List.mem_filter.mp mem).2
  obtain ⟨first, rest, hsegments⟩ := exists_segments path
  rw [names, hsegments] at h
  rw [components, hsegments]
  dsimp only
  obtain none | ⟨before, last, hrest⟩ := List.eq_nil_or_concat' (rest.filter (!isIdle ·))
  -- The first segment is the only name, and the only component then.
  · rw [List.filter_cons, none] at h
    split at h
    · have h : [] ++ [first] = front ++ [name] := h
      obtain ⟨rfl, same⟩ := List.append_inj' h rfl
      obtain rfl := List.singleton_inj.mp same
      have nonempty : first ≠ "" := by
        rintro rfl
        cases hname
      rw [if_pos nonempty, none, List.map_nil, List.getLast?_singleton]
    · exact absurd (congrArg List.length h) (by simp)
  · have same : last = name := by
      have ends := congrArg List.getLast? h
      rw [List.filter_cons, hrest, List.getLast?_concat] at ends
      split at ends
      · rw [List.getLast?_cons, List.getLast?_concat, Option.getD_some] at ends
        exact Option.some.inj ends
      · rw [List.getLast?_concat] at ends
        exact Option.some.inj ends
    have later (front : List Component) :
        (front ++ (rest.filter (!isIdle ·)).map component).getLast? = some (component name) := by
      rw [hrest, same, List.map_append, List.map_singleton, ← List.append_assoc, List.getLast?_concat]
    split
    · exact later [component first]
    · split
      · exact later []
      · exact later [.root]

/-- A path without names is the root, the place it is seen from, or nothing. -/
lemma fileName?_of_names_eq_nil {path : String} (h : names path = []) : fileName? path = none := by
  obtain ⟨first, rest, hsegments⟩ := exists_segments path
  rw [names, hsegments, List.filter_eq_nil_iff, List.forall_mem_cons] at h
  simp only [Bool.not_eq_true, Bool.not_eq_false'] at h
  obtain ⟨idle, idles⟩ := h
  rw [fileName?, components, hsegments]
  dsimp only
  rw [filter_of_idle idles, List.map_nil]
  by_cases nonempty : first ≠ ""
  · have dot : first = "." := by
      rw [isIdle, Bool.or_eq_true, beq_iff_eq, beq_iff_eq] at idle
      exact idle.resolve_left nonempty
    rw [dot]
    rfl
  · rw [if_neg nonempty]
    by_cases single : rest.isEmpty = true
    · rw [if_pos single]
      rfl
    · rw [if_neg single]
      rfl

/-- The file name of a path is its last name, unless that leads back. -/
lemma fileName?_eq_some_iff {path name : String} :
    fileName? path = some name ↔ (names path).getLast? = some name ∧ name ≠ ".." := by
  obtain none | ⟨front, last, hnames⟩ := List.eq_nil_or_concat' (names path)
  · rw [fileName?_of_names_eq_nil none, none]
    exact ⟨nofun, fun h => nomatch h.1⟩
  · have idle : isIdle last = false := by
      have mem : last ∈ names path := hnames ▸ List.mem_concat_self
      simpa using (List.mem_filter.mp mem).2
    rw [fileName?, getLast?_components hnames, hnames, List.getLast?_concat, Option.some_inj]
    by_cases down : last = ".."
    · subst down
      exact ⟨nofun, fun h => absurd h.1.symm h.2⟩
    · rw [component_eq_name idle down]
      constructor
      · rintro ⟨⟩
        exact ⟨rfl, down⟩
      · rintro ⟨rfl, _⟩
        rfl

/-- A path whose last name does not lead back has this name as its file name. -/
lemma fileName?_of_names {path name : String} {front : List String} (h : names path = front ++ [name])
    (down : name ≠ "..") : fileName? path = some name := by
  rw [fileName?_eq_some_iff, h, List.getLast?_concat]
  exact ⟨rfl, down⟩

end Polyadic.Path
