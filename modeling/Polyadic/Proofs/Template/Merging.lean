import Polyadic.Proofs.Template.Extension

/-!
# One scope for a stack

Binding all names of a stack in one scope, from the outermost scope to the innermost, gives every name the text
that it has in the stack (`lookup_merge`), so that a template means the same in both. A name that is bound again
stays where it is and takes the new text (`names_bindAll`, `get?_bindAll`). The main statement is
`resolve_merge`.
-/

namespace Polyadic.Template

namespace Scope

/-- Binds names one after the other. -/
def bindAll (scope : Scope) (pairs : List (String × String)) : Scope :=
  pairs.foldl (fun scope pair => scope.insert pair.1 pair.2) scope

variable {pairs : List (String × String)}

lemma bindAll_cons (scope : Scope) (pair : String × String) (pairs : List (String × String)) :
    scope.bindAll (pair :: pairs) = (scope.insert pair.1 pair.2).bindAll pairs :=
  rfl

/-- Distinct names have their new texts, and all others what they had. -/
lemma get?_bindAll (distinct : (pairs.map Prod.fst).Nodup) (scope : Scope) (name : String) :
    (scope.bindAll pairs).get? name = (pairs.lookup name).or (scope.get? name) := by
  induction pairs generalizing scope with
  | nil => rfl
  | cons pair pairs ih =>
    obtain ⟨key, value⟩ := pair
    obtain ⟨fresh, distinct⟩ := List.nodup_cons.mp distinct
    rw [bindAll_cons, ih distinct, get?_insert, List.lookup_cons]
    by_cases same : name = key
    · have later : pairs.lookup name = none := by
        rw [List.lookup_eq_none_iff]
        intro pair mem
        rw [bne_iff_ne, same]
        exact fun h => fresh (List.mem_map.mpr ⟨pair, mem, h.symm⟩)
      rw [later, if_pos same, same, beq_self_eq_true]
      rfl
    · rw [if_neg same, beq_false_of_ne same]

lemma eraseDups_of_nodup {names : List String} (h : names.Nodup) : names.eraseDups = names := by
  induction names with
  | nil => exact List.eraseDups_nil
  | cons name names ih =>
    obtain ⟨fresh, distinct⟩ := List.nodup_cons.mp h
    have others : names.filter (fun other => !other == name) = names := by
      rw [List.filter_eq_self]
      intro other mem
      rw [Bool.not_eq_true', beq_eq_false_iff_ne]
      exact fun same => fresh (same ▸ mem)
    rw [List.eraseDups_cons, others, ih distinct]

/-- Every name stays where it was first bound. -/
lemma names_bindAll (scope : Scope) (pairs : List (String × String)) :
    (scope.bindAll pairs).names = (scope.names ++ pairs.map Prod.fst).eraseDups := by
  induction pairs generalizing scope with
  | nil =>
    rw [List.map_nil, List.append_nil]
    exact (eraseDups_of_nodup scope.nodup).symm
  | cons pair pairs ih =>
    rw [bindAll_cons, ih, names_insert, List.map_cons]
    by_cases bound : pair.1 ∈ scope.names
    · rw [if_pos bound, List.eraseDups_append, List.eraseDups_append, List.cons_removeAll,
        if_neg (by simpa using bound)]
    · rw [if_neg bound, List.append_assoc, List.singleton_append]

end Scope

namespace Scopes

/-- One scope in which the names of a whole stack are bound, from the outermost scope to the innermost. -/
def merge (scopes : Scopes) : Scope :=
  Scope.empty.bindAll (scopes.reverse.flatMap (·.bindings))

lemma merge_cons (scope : Scope) (scopes : Scopes) :
    merge (scope :: scopes) = (merge scopes).bindAll scope.bindings := by
  rw [merge, List.reverse_cons, List.flatMap_append, Scope.bindAll, List.foldl_append,
    List.flatMap_singleton, ← Scope.bindAll, ← Scope.bindAll, ← merge]

/-- In the one scope every name has the text that it has in the stack. -/
lemma get?_merge (scopes : Scopes) (name : String) : (merge scopes).get? name = scopes.lookup name := by
  induction scopes with
  | nil => rfl
  | cons scope scopes ih =>
    rw [merge_cons, Scope.get?_bindAll scope.nodup, ih, lookup_cons, Scope.get?]

lemma lookup_merge (scopes : Scopes) : lookup [merge scopes] = scopes.lookup := by
  funext name
  rw [lookup_cons, get?_merge]
  exact Option.or_none

lemma names_merge (scopes : Scopes) : (merge scopes).names = (scopes.reverse.flatMap Scope.names).eraseDups := by
  rw [merge, Scope.names_bindAll, List.map_flatMap]
  rfl

end Scopes

/-- Resolving depends on what names mean and on nothing else. -/
theorem resolve_congr {scopes scopes' : Scopes} (same : scopes'.lookup = scopes.lookup) (template : String) :
    resolve scopes' template = resolve scopes template := by
  have more : scopes'.Extends scopes := fun name value found => same ▸ found
  obtain calls | ⟨name, value, _, missing, bound⟩ :=
    expand_of_extends more [] (budget template.toList) template.toList
  · rw [resolve, calls, resolve]
  · rw [← same, bound] at missing
    cases missing

/-- Resolving under a stack is resolving under the one scope in which all its names are bound, from the
outermost scope to the innermost: a template has the same text in both, or fails for the same reason. That
scope has every name once, in the order of the first bindings, with the text of the innermost one. -/
theorem resolve_merge (scopes : Scopes) :
    (∀ template, resolve [scopes.merge] template = resolve scopes template) ∧
      scopes.merge.names = (scopes.reverse.flatMap Scope.names).eraseDups ∧ scopes.merge.names.Nodup ∧
      ∀ name value, (name, value) ∈ scopes.merge.bindings ↔ scopes.lookup name = some value := by
  refine ⟨resolve_congr scopes.lookup_merge, scopes.names_merge, scopes.merge.nodup, fun name value => ?_⟩
  rw [← Scopes.get?_merge, Scope.get?]
  exact ⟨Assoc.lookup_of_mem scopes.merge.nodup, Assoc.mem_of_lookup⟩

example : (Scopes.merge [.ofList [("b", "3"), ("c", "4")], .ofList [("a", "1"), ("b", "2")]]).bindings =
    [("a", "1"), ("b", "3"), ("c", "4")] := by
  decide

end Polyadic.Template
