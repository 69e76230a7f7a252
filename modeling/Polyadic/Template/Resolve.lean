import Polyadic.Template.Scope

/-!
# Resolving placeholders

A placeholder is a name between two dollar signs, `$name$`; the name is not empty and has no dollar
sign. Resolving a template replaces its leftmost placeholder by the resolved text of its name and
scans again from the start, until no placeholder is left. A name that is met again while its own text
is being resolved is a cycle; and since a dollar sign of a spliced text may pair with one beside it,
the number of replacements in one text is bounded as well.

The recursion ends because the names on the active path are distinct and bound (`unused_cons_lt`) and
each replacement uses up one of the budget.
-/

namespace Polyadic.Template

/-- Why a template has no resolved text; both name the placeholder and the outermost template. -/
inductive Error where
  | unbound (name template : String)
  | cyclic (name template : String)
  deriving DecidableEq, Repr

/-- A placeholder in a text: what stands before it, its name, and what stands after it. -/
structure Placeholder where
  before : List Char
  name : List Char
  after : List Char
  deriving DecidableEq

/-- The name between a dollar sign and the next one, and what follows; the text starts behind the
first sign. -/
def nameBehind? (text : List Char) : Option (List Char × List Char) :=
  match text.takeWhile (· ≠ '$'), text.dropWhile (· ≠ '$') with
  | c :: name, _ :: after => some (c :: name, after)
  | _, _ => none

theorem eq_of_nameBehind? {text name after : List Char} (h : nameBehind? text = some (name, after)) :
    text = name ++ '$' :: after := by
  unfold nameBehind? at h
  split at h
  · rename_i c n d a hn hd
    cases h
    have hsplit := List.takeWhile_append_dropWhile (p := fun x => decide (x ≠ '$')) (l := text)
    have hdollar : d = '$' := by
      have := List.head?_dropWhile_not (fun x => decide (x ≠ '$')) text
      rw [hd] at this
      simpa using this
    rw [hn, hd, hdollar] at hsplit
    exact hsplit.symm
  · cases h

/-- The leftmost placeholder of a text. -/
def firstPlaceholder? : List Char → Option Placeholder
  | [] => none
  | c :: rest =>
    match if c = '$' then nameBehind? rest else none with
    | some (name, after) => some ⟨[], name, after⟩
    | none => (firstPlaceholder? rest).map fun p => { p with before := c :: p.before }

/-- A text is what stands before its leftmost placeholder, the placeholder, and what stands after. -/
theorem eq_of_firstPlaceholder? {text : List Char} {p : Placeholder}
    (h : firstPlaceholder? text = some p) :
    text = p.before ++ '$' :: (p.name ++ '$' :: p.after) := by
  induction text generalizing p with
  | nil => simp [firstPlaceholder?] at h
  | cons c rest ih =>
    rw [firstPlaceholder?] at h
    split at h
    · rename_i name after hname
      cases h
      split at hname
      · rename_i hc
        rw [hc, eq_of_nameBehind? hname]
        rfl
      · cases hname
    · obtain ⟨q, hq, rfl⟩ := Option.map_eq_some_iff.mp h
      simp [ih hq]

theorem length_after_lt {text : List Char} {p : Placeholder} (h : firstPlaceholder? text = some p) :
    p.after.length < text.length := by
  rw [eq_of_firstPlaceholder? h]
  simp only [List.length_append, List.length_cons]
  omega

/-- How many placeholders a text has when it is read from left to right without overlap. -/
def placeholderCount (text : List Char) : Nat :=
  match h : firstPlaceholder? text with
  | none => 0
  | some p => placeholderCount p.after + 1
termination_by text.length
decreasing_by exact length_after_lt h

/-- Replacements allowed in one text beyond one for each placeholder it starts with. -/
def expansionLimit : Nat := 1024

/-- Replacements allowed in one text. -/
def budget (text : List Char) : Nat :=
  placeholderCount text + expansionLimit

/-- How many bound names are not on the active path. -/
def unused (scopes : Scopes) (active : List String) : Nat :=
  (scopes.boundNames.filter (· ∉ active)).length

theorem unused_cons_lt {scopes : Scopes} {active : List String} {name : String}
    (bound : name ∈ scopes.boundNames) (fresh : name ∉ active) :
    unused scopes (name :: active) < unused scopes active := by
  have h : (scopes.boundNames.filter (· ∉ name :: active)) =
      (scopes.boundNames.filter (· ∉ active)).filter (· ≠ name) := by
    rw [List.filter_filter]
    congr 1
    funext x
    simp [List.mem_cons, not_or]
  unfold unused
  rw [h]
  refine List.length_filter_lt_length_iff_exists.mpr ⟨name, ?_, by simp⟩
  exact List.mem_filter.mpr ⟨bound, by simpa using fresh⟩

/--
Replaces placeholders until none is left. The names on the active path are those whose texts are being
resolved around this one, and `left` is how many replacements this text may still take.
-/
def expand (scopes : Scopes) (template : String) (active : List String) (left : Nat)
    (text : List Char) : Except Error (List Char) :=
  match firstPlaceholder? text with
  | none => .ok text
  | some ⟨before, nameChars, after⟩ =>
    let name := String.ofList nameChars
    if _stop : left = 0 ∨ name ∈ active then .error (.cyclic name template)
    else
      match _found : scopes.lookup name with
      | none => .error (.unbound name template)
      | some value =>
        match expand scopes template (name :: active) (budget value.toList) value.toList with
        | .error e => .error e
        | .ok resolved => expand scopes template active (left - 1) (before ++ resolved ++ after)
termination_by (unused scopes active, left)
decreasing_by
  · exact Prod.Lex.left _ _
      (unused_cons_lt (Scopes.mem_boundNames_of_lookup _found) (fun h => _stop (.inr h)))
  · exact Prod.Lex.right _ (by have := fun h => _stop (.inl h); omega)

/-- The template with every placeholder replaced by what it means in the live scopes. -/
def resolve (scopes : Scopes) (template : String) : Except Error String :=
  (expand scopes template [] (budget template.toList) template.toList).map String.ofList

end Polyadic.Template
