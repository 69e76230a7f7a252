import Polyadic.Proofs.Template.DepthFirst

/-!
# Resolved texts

What resolving leaves behind has no placeholder any more. `HasPlaceholder` says what a placeholder is
without searching for one: the search finds none exactly if there is none (`firstPlaceholder?_eq_none_iff`),
and that is so exactly if all dollar signs of the text stand side by side (`not_hasPlaceholder_iff`). The
main statement is `resolve_resolved`.
-/

namespace Polyadic.Template

/-- Two dollar signs with a name between them stand in the text. -/
def HasPlaceholder (chars : List Char) : Prop :=
  ∃ before name after, name ≠ [] ∧ '$' ∉ name ∧ chars = before ++ '$' :: (name ++ '$' :: after)

/-- All dollar signs of the text stand side by side. -/
def HasOneRun (chars : List Char) : Prop :=
  ∃ front n back, '$' ∉ front ∧ '$' ∉ back ∧ chars = front ++ (List.replicate n '$' ++ back)

/-! ## The search finds what is there -/

lemma name_of_firstPlaceholder? {chars : List Char} {p : Placeholder}
    (h : firstPlaceholder? chars = some p) : p.name ≠ [] ∧ '$' ∉ p.name := by
  induction chars generalizing p with
  | nil => cases h
  | cons c rest ih =>
    rw [firstPlaceholder?] at h
    split at h
    · rename_i name after found
      cases h
      split at found
      · exact name_of_nameBehind? found
      · cases found
    · obtain ⟨q, hq, rfl⟩ := Option.map_eq_some_iff.mp h
      have inner := ih hq
      exact inner

lemma hasPlaceholder_of_some {chars : List Char} {p : Placeholder}
    (h : firstPlaceholder? chars = some p) : HasPlaceholder chars := by
  obtain ⟨nonempty, plain⟩ := name_of_firstPlaceholder? h
  exact ⟨p.before, p.name, p.after, nonempty, plain, eq_of_firstPlaceholder? h⟩

lemma firstPlaceholder?_append_ne_none {rest : List Char} (before : List Char)
    (h : firstPlaceholder? rest ≠ none) : firstPlaceholder? (before ++ rest) ≠ none := by
  induction before with
  | nil => exact h
  | cons c before ih =>
    rw [List.cons_append, firstPlaceholder?]
    split
    · exact Option.some_ne_none _
    · exact fun none => ih (Option.map_eq_none_iff.mp none)

lemma HasPlaceholder.found {chars : List Char} (h : HasPlaceholder chars) :
    firstPlaceholder? chars ≠ none := by
  obtain ⟨before, name, after, nonempty, plain, rfl⟩ := h
  apply firstPlaceholder?_append_ne_none
  have here : firstPlaceholder? ([] ++ '$' :: (name ++ '$' :: after)) = some ⟨[], name, after⟩ :=
    firstPlaceholder?_token List.not_mem_nil nonempty plain
  rw [List.nil_append] at here
  rw [here]
  exact Option.some_ne_none _

theorem firstPlaceholder?_eq_none_iff {chars : List Char} :
    firstPlaceholder? chars = none ↔ ¬ HasPlaceholder chars := by
  constructor
  · exact fun none h => h.found none
  · intro h
    cases hp : firstPlaceholder? chars with
    | none => rfl
    | some p => exact absurd (hasPlaceholder_of_some hp) h

/-! ## Dollar signs side by side -/

lemma firstPlaceholder?_run {back : List Char} (h : '$' ∉ back) (n : Nat) :
    firstPlaceholder? (List.replicate n '$' ++ back) = none := by
  induction n with
  | zero => exact firstPlaceholder?_plain h
  | succ n ih =>
    have unnamed : nameBehind? (List.replicate n '$' ++ back) = none := by
      cases n with
      | zero => exact nameBehind?_plain h
      | succ n =>
        rw [List.replicate_succ, List.cons_append, nameBehind?, List.takeWhile_cons_of_neg (by decide)]
    rw [List.replicate_succ, List.cons_append, firstPlaceholder?, if_pos rfl, unnamed, ih]
    rfl

lemma HasOneRun.not_hasPlaceholder {chars : List Char} (h : HasOneRun chars) :
    ¬ HasPlaceholder chars := by
  obtain ⟨front, n, back, hfront, hback, rfl⟩ := h
  rw [← firstPlaceholder?_eq_none_iff, firstPlaceholder?_append hfront, firstPlaceholder?_run hback]
  rfl

/-- The dollar signs at the start of a text are those of a run. -/
lemma exists_eq_run_append (chars : List Char) :
    ∃ n back, back.head? ≠ some '$' ∧ chars = List.replicate n '$' ++ back := by
  induction chars with
  | nil => exact ⟨0, [], nofun, rfl⟩
  | cons c rest ih =>
    by_cases hc : c = '$'
    · obtain ⟨n, back, hback, rfl⟩ := ih
      exact ⟨n + 1, back, hback, by rw [hc, List.replicate_succ, List.cons_append]⟩
    · exact ⟨0, c :: rest, by simpa using hc, rfl⟩

lemma hasOneRun_of_not_hasPlaceholder {chars : List Char} (h : ¬ HasPlaceholder chars) :
    HasOneRun chars := by
  by_cases hmem : '$' ∈ chars
  · obtain ⟨front, rest, rfl, hfront⟩ := List.eq_append_cons_of_mem hmem
    obtain ⟨n, back, hback, rfl⟩ := exists_eq_run_append rest
    refine ⟨front, n + 1, back, hfront, fun hdollar => ?_, by rw [List.replicate_succ, List.cons_append]⟩
    -- A dollar sign behind the run would make a placeholder with the last one of the run.
    obtain ⟨name, after, rfl, hname⟩ := List.eq_append_cons_of_mem hdollar
    have nonempty : name ≠ [] := by
      rintro rfl
      exact hback rfl
    refine h ⟨front ++ List.replicate n '$', name, after, nonempty, hname, ?_⟩
    calc
      front ++ '$' :: (List.replicate n '$' ++ (name ++ '$' :: after))
        = front ++ (List.replicate (n + 1) '$' ++ (name ++ '$' :: after)) := by
          rw [List.replicate_succ, List.cons_append]
      _ = front ++ List.replicate n '$' ++ '$' :: (name ++ '$' :: after) := by
          rw [List.replicate_succ', List.append_assoc, List.append_assoc, List.singleton_append]
  · exact ⟨chars, 0, [], hmem, List.not_mem_nil, (List.append_nil chars).symm⟩

theorem not_hasPlaceholder_iff {chars : List Char} : ¬ HasPlaceholder chars ↔ HasOneRun chars :=
  ⟨hasOneRun_of_not_hasPlaceholder, HasOneRun.not_hasPlaceholder⟩

/-! ## What is left -/

variable {scopes : Scopes} {template : String}

/-- A call ends with a text in which it has found nothing more to replace. -/
theorem firstPlaceholder?_expand {path : List String} {left : Nat} {chars resolved : List Char}
    (h : expand scopes template path left chars = .ok resolved) : firstPlaceholder? resolved = none := by
  induction path, left, chars using expand_induction scopes template with
  | plain path left chars none =>
    rw [expand_none none] at h
    cases h
    exact none
  | stopped path left chars before name after found stop =>
    rw [expand_stopped found stop] at h
    cases h
  | unbound path left chars before name after found budgeted fresh missing =>
    rw [expand_unbound found budgeted fresh missing] at h
    cases h
  | failed path left chars before name after value e found budgeted fresh hvalue failed _ =>
    rw [expand_bound found budgeted fresh hvalue, failed] at h
    cases h
  | spliced path left chars before name after value inner found budgeted fresh hvalue done _ ih =>
    rw [expand_bound found budgeted fresh hvalue, done] at h
    exact ih h

/-- A text without placeholders is resolved already, whatever is bound. -/
lemma resolve_of_none {text : String} (h : firstPlaceholder? text.toList = none) :
    resolve scopes text = .ok text := by
  rw [resolve, expand_none h]
  show Except.ok (String.ofList text.toList) = _
  rw [String.ofList_toList]

/-- A resolved text has no placeholder, its dollar signs stand side by side, and it stays as it is when it
is resolved again under whatever bindings. -/
theorem resolve_resolved {resolved : String} (h : resolve scopes template = .ok resolved) :
    ¬ HasPlaceholder resolved.toList ∧ HasOneRun resolved.toList ∧
      ∀ scopes', resolve scopes' resolved = .ok resolved := by
  obtain ⟨chars, expanded, rfl⟩ := map_eq_ok.mp h
  have none : firstPlaceholder? (String.ofList chars).toList = Option.none := by
    rw [String.toList_ofList]
    exact firstPlaceholder?_expand expanded
  have bare := firstPlaceholder?_eq_none_iff.mp none
  exact ⟨bare, not_hasPlaceholder_iff.mp bare, fun scopes' => resolve_of_none none⟩

/-- The dollar signs around a placeholder and in its text make another placeholder, and some are left. -/
theorem resolve_resolved_price :
    resolve [.ofList [("price", "5$"), ("5", "five$$")]] "$$price$$" = .ok "five$$$" ∧
      ∀ scopes, resolve scopes "five$$$" = .ok "five$$$" := by
  have h : resolve [.ofList [("price", "5$"), ("5", "five$$")]] "$$price$$" = .ok "five$$$" := by cbv
  exact ⟨h, (resolve_resolved h).2.2⟩

end Polyadic.Template
