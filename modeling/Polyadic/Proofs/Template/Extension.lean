import Polyadic.Proofs.Template.Resolved

/-!
# Resolving with more bindings

A stack of scopes extends another one if every name that has a text in the other one has the same text in it
(`Extends`). Under both of them the resolver makes the same replacements in the same calls, up to a name that
only the extended stack binds (`expand_of_extends`), and it stops at a name without a text only if no scope
binds it (`unbound_of_expand`). The main statement is `resolve_of_extends`.
-/

namespace Polyadic.Template

namespace Scope

lemma get?_eq_none_iff {scope : Scope} {name : String} : scope.get? name = none ↔ name ∉ scope.names := by
  rw [get?, List.lookup_eq_none_iff, names, List.mem_map, not_exists]
  refine forall_congr' fun binding => ?_
  rw [bne_iff_ne, not_and, ne_comm]

end Scope

namespace Scopes

variable {scopes scopes' : Scopes} {name : String}

lemma lookup_eq_none_iff : scopes.lookup name = none ↔ ∀ scope ∈ scopes, name ∉ scope.names := by
  rw [lookup, List.findSome?_eq_none_iff]
  exact forall₂_congr fun scope _ => Scope.get?_eq_none_iff

/-- Every name that has a text in the second stack has the same text in the first. -/
def Extends (scopes' scopes : Scopes) : Prop :=
  ∀ name value, scopes.lookup name = some value → scopes'.lookup name = some value

/-- Scopes around a stack give texts to more names. -/
lemma extends_append (scopes around : Scopes) : Extends (scopes ++ around) scopes := by
  intro name value found
  rw [lookup, List.findSome?_append]
  have found : scopes.findSome? (·.get? name) = some value := found
  rw [found, Option.some_or]

end Scopes

section Calls

variable {scopes scopes' : Scopes} {template : String}

/-- With more bindings a call does the same, unless it stops at a name that only they bind. -/
theorem expand_of_extends (more : scopes'.Extends scopes) (path : List String) (left : Nat)
    (chars : List Char) :
    expand scopes' template path left chars = expand scopes template path left chars ∨
      ∃ name value, expand scopes template path left chars = .error (.unbound name template) ∧
        scopes.lookup name = none ∧ scopes'.lookup name = some value := by
  induction path, left, chars using expand_induction scopes template with
  | plain path left chars none =>
    left
    rw [expand_none none, expand_none none]
  | stopped path left chars before name after found stop =>
    left
    rw [expand_stopped found stop, expand_stopped found stop]
  | unbound path left chars before name after found budgeted fresh missing =>
    rw [expand_unbound found budgeted fresh missing]
    cases missing' : scopes'.lookup name with
    | none => exact .inl (expand_unbound found budgeted fresh missing')
    | some value => exact .inr ⟨name, value, rfl, missing, missing'⟩
  | failed path left chars before name after value e found budgeted fresh hvalue failed ih =>
    rw [expand_bound found budgeted fresh hvalue, expand_bound found budgeted fresh (more name value hvalue)]
    obtain same | ⟨name', value', stops, missing⟩ := ih
    · left
      rw [same, failed]
      rfl
    · right
      rw [stops]
      exact ⟨name', value', rfl, missing⟩
  | spliced path left chars before name after value resolved found budgeted fresh hvalue done ih ih' =>
    rw [expand_bound found budgeted fresh hvalue, expand_bound found budgeted fresh (more name value hvalue)]
    obtain same | ⟨_, _, stops, _⟩ := ih
    · rw [same, done]
      exact ih'
    · cases done.symm.trans stops

/-- A name for which a call stops without a text stands between dollar signs and is bound by no scope. -/
lemma unbound_of_expand {path : List String} {left : Nat} {chars : List Char} {name template' : String}
    (h : expand scopes template path left chars = .error (.unbound name template')) :
    template' = template ∧ name.toList ≠ [] ∧ '$' ∉ name.toList ∧ scopes.lookup name = none := by
  induction path, left, chars using expand_induction scopes template with
  | plain path left chars none =>
    rw [expand_none none] at h
    cases h
  | stopped path left chars before name after found stop =>
    rw [expand_stopped found stop] at h
    cases h
  | unbound path left chars before name after found budgeted fresh missing =>
    rw [expand_unbound found budgeted fresh missing] at h
    cases h
    obtain ⟨nonempty, plain⟩ := name_of_firstPlaceholder? found
    exact ⟨rfl, nonempty, plain, missing⟩
  | failed path left chars before name after value e found budgeted fresh hvalue failed ih =>
    rw [expand_bound found budgeted fresh hvalue, failed] at h
    cases h
    exact ih failed
  | spliced path left chars before name after value resolved found budgeted fresh hvalue done ih ih' =>
    rw [expand_bound found budgeted fresh hvalue, done] at h
    exact ih' h

end Calls

variable {scopes scopes' : Scopes}

/-- With more bindings a template is resolved to the same text or fails for the same cycle. It fails for a name
without a text only if this name is not empty, has no dollar sign and is bound by no scope, and it does so too
with more bindings that leave the name without one. -/
theorem resolve_of_extends (more : scopes'.Extends scopes) (template : String) :
    (∀ resolved, resolve scopes template = .ok resolved → resolve scopes' template = .ok resolved) ∧
      (∀ name template', resolve scopes template = .error (.cyclic name template') →
        resolve scopes' template = .error (.cyclic name template')) ∧
      ∀ name template', resolve scopes template = .error (.unbound name template') →
        (template' = template ∧ name ≠ "" ∧ '$' ∉ name.toList ∧ ∀ scope ∈ scopes, name ∉ scope.names) ∧
          (scopes'.lookup name = none → resolve scopes' template = .error (.unbound name template')) := by
  have calls := @expand_of_extends _ _ template more [] (budget template.toList) template.toList
  have same {result : Except Error String} (h : resolve scopes template = result)
      (other : ∀ name value, scopes'.lookup name = some value → result ≠ .error (.unbound name template)) :
      resolve scopes' template = result := by
    obtain same | ⟨name, value, stops, _, bound⟩ := calls
    · rw [resolve, same]
      exact h
    · refine absurd ?_ (other name value bound)
      rw [← h, resolve, stops]
      rfl
  refine ⟨fun resolved h => same h (by simp), fun name template' h => same h (by simp),
    fun name template' h => ⟨?_, ?_⟩⟩
  · obtain ⟨rfl, nonempty, plain, missing⟩ := unbound_of_expand (map_eq_error.mp h)
    refine ⟨rfl, ?_, plain, Scopes.lookup_eq_none_iff.mp missing⟩
    rintro rfl
    exact nonempty rfl
  · intro missing
    refine same h fun name' value bound stops => ?_
    cases stops
    cases missing.symm.trans bound

/-- A text whose dollar signs pair with those around it, and a cycle. -/
def joined : Scopes :=
  [.ofList [("price", "5$"), ("5", "five$$"), ("loop", "<$loop$>")]]

/-- The same with a scope around it, in which one more name is bound and one that is hidden. -/
def taxed : Scopes :=
  joined ++ [.ofList [("tax", "19%"), ("price", "hidden")]]

/-- The name that is bound nowhere stops both runs, and the other one only the first. -/
theorem resolve_of_extends_taxed :
    taxed.Extends joined ∧
      (resolve joined "$$price$$" = .ok "five$$$" ∧ resolve taxed "$$price$$" = .ok "five$$$") ∧
      (resolve joined "$loop$" = .error (.cyclic "loop" "$loop$") ∧
        resolve taxed "$loop$" = .error (.cyclic "loop" "$loop$")) ∧
      (resolve joined "$tax$" = .error (.unbound "tax" "$tax$") ∧ ∀ scope ∈ joined, "tax" ∉ scope.names) ∧
      resolve joined "$fee$" = .error (.unbound "fee" "$fee$") ∧ taxed.lookup "fee" = none ∧
      resolve taxed "$fee$" = .error (.unbound "fee" "$fee$") := by
  have more : taxed.Extends joined := Scopes.extends_append joined _
  have price : resolve joined "$$price$$" = .ok "five$$$" := by cbv
  have loop : resolve joined "$loop$" = .error (.cyclic "loop" "$loop$") := by cbv
  have tax : resolve joined "$tax$" = .error (.unbound "tax" "$tax$") := by cbv
  have fee : resolve joined "$fee$" = .error (.unbound "fee" "$fee$") := by cbv
  have missing : taxed.lookup "fee" = none := by cbv
  refine ⟨more, ⟨price, (resolve_of_extends more _).1 _ price⟩,
    ⟨loop, (resolve_of_extends more _).2.1 _ _ loop⟩, ⟨tax, ?_⟩, fee, missing, ?_⟩
  · exact ((resolve_of_extends more _).2.2 _ _ tax).1.2.2.2
  · exact ((resolve_of_extends more _).2.2 _ _ fee).2 missing

end Polyadic.Template
