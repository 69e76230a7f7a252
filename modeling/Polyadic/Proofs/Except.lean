import Mathlib

/-!
# Results without an error

When a sequence of steps that may fail gives no error: each step gives none (`bind_eq_ok`, `forM_eq_ok`), and its
results are those of the steps (`exists_of_mapM`). The error that it gives is that of the first step with one
(`forM_eq_error`).
-/

namespace Polyadic

variable {ε α β : Type}

lemma bind_eq_ok {x : Except ε α} {f : α → Except ε β} {b : β} :
    (x >>= f) = .ok b ↔ ∃ a, x = .ok a ∧ f a = .ok b := by
  cases x with
  | error e => exact ⟨nofun, nofun⟩
  | ok a =>
    constructor
    · exact fun h => ⟨a, rfl, h⟩
    · rintro ⟨_, ⟨⟩, h⟩
      exact h

lemma forM_eq_ok {f : α → Except ε Unit} {xs : List α} :
    xs.forM f = .ok () ↔ ∀ x ∈ xs, f x = .ok () := by
  induction xs with
  | nil => exact ⟨fun _ => nofun, fun _ => rfl⟩
  | cons x xs ih =>
    rw [List.forM_eq_forM, List.forM_cons, bind_eq_ok, List.forall_mem_cons, ← ih, List.forM_eq_forM]
    constructor
    · rintro ⟨⟨⟩, hx, hxs⟩
      exact ⟨hx, hxs⟩
    · rintro ⟨hx, hxs⟩
      exact ⟨_, hx, hxs⟩

lemma forM_eq_error {f : α → Except ε Unit} {xs : List α} {error : ε} :
    xs.forM f = .error error ↔
      ∃ before x after, xs = before ++ x :: after ∧ (∀ y ∈ before, f y = .ok ()) ∧ f x = .error error := by
  induction xs with
  | nil =>
    constructor
    · nofun
    · rintro ⟨before, x, after, impossible, _⟩
      cases before <;> cases impossible
  | cons x xs ih =>
    rw [List.forM_eq_forM, List.forM_cons, ← List.forM_eq_forM]
    constructor
    · intro h
      cases hx : f x with
      | error e =>
        rw [hx] at h
        exact ⟨[], x, xs, rfl, nofun, hx.trans h⟩
      | ok _ =>
        rw [hx] at h
        obtain ⟨before, y, after, rfl, hbefore, hy⟩ := ih.mp h
        exact ⟨x :: before, y, after, rfl, List.forall_mem_cons.mpr ⟨hx, hbefore⟩, hy⟩
    · rintro ⟨before, y, after, hxs, hbefore, hy⟩
      cases before with
      | nil =>
        cases hxs
        rw [hy]
        rfl
      | cons z before =>
        cases hxs
        obtain ⟨hx, hbefore⟩ := List.forall_mem_cons.mp hbefore
        rw [hx]
        exact ih.mpr ⟨before, y, after, rfl, hbefore, hy⟩

/-- Every result of a list of steps is that of one of them. -/
lemma exists_of_mapM {f : α → Except ε β} {xs : List α} {ys : List β} (h : xs.mapM f = .ok ys) :
    ∀ y ∈ ys, ∃ x ∈ xs, f x = .ok y := by
  induction xs generalizing ys with
  | nil =>
    cases h
    exact nofun
  | cons x xs ih =>
    rw [List.mapM_cons] at h
    obtain ⟨y, hy, h⟩ := bind_eq_ok.mp h
    obtain ⟨rest, hrest, h⟩ := bind_eq_ok.mp h
    cases h
    rw [List.forall_mem_cons]
    refine ⟨⟨x, List.mem_cons_self, hy⟩, fun z hz => ?_⟩
    obtain ⟨x', mem, hx'⟩ := ih hrest z hz
    exact ⟨x', List.mem_cons_of_mem x mem, hx'⟩

end Polyadic
