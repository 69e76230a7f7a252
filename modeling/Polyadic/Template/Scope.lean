import Polyadic.Assoc

/-!
# Scopes

A scope binds names to texts. It keeps the order in which names were first bound, and binding a name
again replaces its text in place, so every name is bound once. Live scopes form a stack, innermost
first, and a name means what the innermost scope that binds it says.
-/

namespace Polyadic.Template

/-- Bindings of names to texts in the order of first binding, each name once. -/
structure Scope where
  bindings : List (String × String)
  nodup : (bindings.map Prod.fst).Nodup

namespace Scope

/-- The scope that binds nothing. -/
def empty : Scope := ⟨[], List.nodup_nil⟩

instance : Inhabited Scope := ⟨empty⟩

/-- Binds a name, replacing the text it was bound to. -/
def insert (scope : Scope) (name value : String) : Scope :=
  ⟨Assoc.set name value scope.bindings, Assoc.nodup_set name value scope.nodup⟩

/-- The scope made by binding names one after the other. -/
def ofList (pairs : List (String × String)) : Scope :=
  pairs.foldl (fun scope pair => scope.insert pair.1 pair.2) empty

/-- The text bound to a name. -/
def get? (scope : Scope) (name : String) : Option String :=
  scope.bindings.lookup name

/-- The bound names, in the order of first binding. -/
def names (scope : Scope) : List String :=
  scope.bindings.map Prod.fst

/-- How many names are bound. -/
def size (scope : Scope) : Nat :=
  scope.bindings.length

/-- Whether two scopes bind the same names to the same texts, in whatever order. -/
def sameBindings (a b : Scope) : Bool :=
  a.size == b.size && a.bindings.all fun binding => b.get? binding.1 == some binding.2

theorem get?_insert (scope : Scope) (name value other : String) :
    (scope.insert name value).get? other = if other = name then some value else scope.get? other :=
  Assoc.lookup_set name other value scope.bindings

theorem names_insert (scope : Scope) (name value : String) :
    (scope.insert name value).names =
      if name ∈ scope.names then scope.names else scope.names ++ [name] :=
  Assoc.map_fst_set name value scope.bindings

theorem mem_names_of_get? {scope : Scope} {name value : String} (h : scope.get? name = some value) :
    name ∈ scope.names := by
  simp only [get?, List.lookup_eq_some_iff] at h
  obtain ⟨front, back, hs, _⟩ := h
  simp [names, hs]

theorem bindings_foldl_insert {pairs : List (String × String)} (scope : Scope)
    (h : (scope.bindings ++ pairs).map Prod.fst |>.Nodup) :
    (pairs.foldl (fun scope pair => scope.insert pair.1 pair.2) scope).bindings =
      scope.bindings ++ pairs := by
  induction pairs generalizing scope with
  | nil => rw [List.append_nil]; rfl
  | cons pair pairs ih =>
    have fresh : pair.1 ∉ scope.bindings.map Prod.fst := by
      rw [List.map_append, List.nodup_append] at h
      exact fun hmem => h.2.2 pair.1 hmem pair.1 List.mem_cons_self rfl
    have inserted : (scope.insert pair.1 pair.2).bindings = scope.bindings ++ [pair] :=
      Assoc.set_of_not_mem fresh
    have assoc : scope.bindings ++ [pair] ++ pairs = scope.bindings ++ pair :: pairs := by
      rw [List.append_assoc, List.singleton_append]
    rw [List.foldl_cons, ih (scope.insert pair.1 pair.2) (by rwa [inserted, assoc]), inserted, assoc]

/-- A scope made from distinct names has just their bindings. -/
theorem bindings_ofList {pairs : List (String × String)} (h : (pairs.map Prod.fst).Nodup) :
    (ofList pairs).bindings = pairs :=
  bindings_foldl_insert empty h

theorem get?_ofList {pairs : List (String × String)} (h : (pairs.map Prod.fst).Nodup) (name : String) :
    (ofList pairs).get? name = pairs.lookup name := by
  rw [get?, bindings_ofList h]

end Scope

/-- A stack of scopes, innermost first. -/
abbrev Scopes := List Scope

namespace Scopes

/-- The text of a name in the innermost scope that binds it. -/
def lookup (scopes : Scopes) (name : String) : Option String :=
  scopes.findSome? (·.get? name)

theorem lookup_cons (scope : Scope) (scopes : Scopes) (name : String) :
    lookup (scope :: scopes) name = (scope.get? name).or (scopes.lookup name) := by
  rw [lookup, List.findSome?_cons, lookup]
  cases scope.get? name <;> rfl

/-- Every name that some scope binds. -/
def boundNames (scopes : Scopes) : List String :=
  scopes.flatMap Scope.names

theorem mem_boundNames_of_lookup {scopes : Scopes} {name value : String}
    (h : scopes.lookup name = some value) : name ∈ scopes.boundNames := by
  obtain ⟨scope, hs, hv⟩ := List.exists_of_findSome?_eq_some h
  exact List.mem_flatMap.mpr ⟨scope, hs, Scope.mem_names_of_get? hv⟩

end Scopes

end Polyadic.Template
