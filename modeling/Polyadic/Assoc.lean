/-!
# Association lists

Setting a key keeps its place if it is there and appends it otherwise. Main statements: what is looked
up after a key was set (`lookup_set`) or erased (`lookup_erase`), and setting a key to what it has changes
nothing (`set_of_lookup`).
-/

namespace Polyadic.Assoc

variable {α β : Type} [DecidableEq α]

/-- Gives a key a value: in place if the key is there, else at the end. -/
def set (key : α) (value : β) : List (α × β) → List (α × β)
  | [] => [(key, value)]
  | pair :: rest => if pair.1 = key then (key, value) :: rest else pair :: set key value rest

/-- Drops every pair with the key. -/
def erase (key : α) (pairs : List (α × β)) : List (α × β) :=
  pairs.filter fun pair => pair.1 ≠ key

theorem map_fst_set (key : α) (value : β) (pairs : List (α × β)) :
    (set key value pairs).map Prod.fst =
      if key ∈ pairs.map Prod.fst then pairs.map Prod.fst else pairs.map Prod.fst ++ [key] := by
  induction pairs with
  | nil => simp [set]
  | cons pair rest ih =>
    by_cases h : pair.1 = key
    · simp [set, h]
    · have h' : ¬ key = pair.1 := fun e => h e.symm
      simp only [set, h, if_false, List.map_cons, ih, List.mem_cons, h', false_or]
      split <;> simp

theorem set_of_not_mem {key : α} {value : β} {pairs : List (α × β)} (h : key ∉ pairs.map Prod.fst) :
    set key value pairs = pairs ++ [(key, value)] := by
  induction pairs with
  | nil => rfl
  | cons pair rest ih =>
    obtain ⟨hpair, hrest⟩ := not_or.mp (mt List.mem_cons.mpr h)
    rw [set, if_neg (Ne.symm hpair), ih hrest, List.cons_append]

@[simp] theorem set_set (key : α) (value value' : β) (pairs : List (α × β)) :
    set key value' (set key value pairs) = set key value' pairs := by
  induction pairs with
  | nil => exact if_pos rfl
  | cons pair rest ih =>
    rw [set, set]
    split
    · exact if_pos rfl
    · rename_i other
      rw [set, if_neg other, ih]

/-- Setting a key keeps the keys distinct. -/
theorem nodup_set (key : α) (value : β) {pairs : List (α × β)} (h : (pairs.map Prod.fst).Nodup) :
    ((set key value pairs).map Prod.fst).Nodup := by
  rw [map_fst_set]
  split
  · exact h
  · rename_i hn
    rw [List.nodup_append]
    refine ⟨h, by simp, ?_⟩
    intro a ha b hb hab
    rw [List.mem_singleton] at hb
    subst hb
    exact hn (hab ▸ ha)

section Lookup

variable [BEq α] [LawfulBEq α]

theorem lookup_set (key other : α) (value : β) (pairs : List (α × β)) :
    (set key value pairs).lookup other = if other = key then some value else pairs.lookup other := by
  induction pairs with
  | nil =>
    by_cases h : other = key
    · simp [set, h]
    · have hb : (other == key) = false := by simpa using h
      simp [set, List.lookup_cons, h, hb]
  | cons pair rest ih =>
    obtain ⟨k, v⟩ := pair
    by_cases hk : k = key
    · subst hk
      by_cases h : other = k
      · simp [set, h]
      · have hb : (other == k) = false := by simpa using h
        simp [set, List.lookup_cons, h, hb]
    · simp only [set, hk, if_false, List.lookup_cons, ih]
      by_cases h : other = k
      · have hne : other ≠ key := fun e => hk (h ▸ e)
        simp [h, hk]
      · have hb : (other == k) = false := by simpa using h
        simp [hb]

theorem lookup_erase (key other : α) (pairs : List (α × β)) :
    (erase key pairs).lookup other = if other = key then none else pairs.lookup other := by
  induction pairs with
  | nil => simp [erase]
  | cons pair rest ih =>
    obtain ⟨k, v⟩ := pair
    by_cases hk : k = key
    · have hrest : erase key ((k, v) :: rest) = erase key rest := by simp [erase, hk]
      rw [hrest, ih]
      by_cases h : other = key
      · simp [h]
      · have hb : (other == k) = false := by simpa [hk] using h
        simp only [h, if_false, List.lookup_cons, hb]
    · have hrest : erase key ((k, v) :: rest) = (k, v) :: erase key rest := by simp [erase, hk]
      rw [hrest, List.lookup_cons, ih, List.lookup_cons]
      by_cases h : other = k
      · subst h
        simp [hk]
      · have hb : (other == k) = false := by simpa using h
        simp only [hb]

theorem set_of_lookup {key : α} {value : β} {pairs : List (α × β)} (h : pairs.lookup key = some value) :
    set key value pairs = pairs := by
  induction pairs with
  | nil => cases h
  | cons pair rest ih =>
    obtain ⟨k, v⟩ := pair
    rw [List.lookup_cons] at h
    by_cases same : k = key
    · subst same
      rw [beq_self_eq_true] at h
      rw [set, if_pos rfl, Option.some.inj h]
    · rw [beq_eq_false_iff_ne.mpr (Ne.symm same)] at h
      rw [set, if_neg same, ih h]

omit [DecidableEq α] in
theorem lookup_of_mem {key : α} {value : β} {pairs : List (α × β)} (nodup : (pairs.map Prod.fst).Nodup)
    (h : (key, value) ∈ pairs) : pairs.lookup key = some value := by
  obtain ⟨front, back, rfl⟩ := List.append_of_mem h
  refine List.lookup_eq_some_iff.mpr ⟨front, back, rfl, fun pair hpair => ?_⟩
  rw [List.map_append, List.map_cons, List.nodup_append] at nodup
  exact bne_iff_ne.mpr (nodup.2.2 pair.1 (List.mem_map_of_mem hpair) key List.mem_cons_self).symm

omit [DecidableEq α] in
theorem mem_of_lookup {key : α} {value : β} {pairs : List (α × β)} (h : pairs.lookup key = some value) :
    (key, value) ∈ pairs := by
  obtain ⟨front, back, rfl, _⟩ := List.lookup_eq_some_iff.mp h
  exact List.mem_append_right front List.mem_cons_self

end Lookup

end Polyadic.Assoc
