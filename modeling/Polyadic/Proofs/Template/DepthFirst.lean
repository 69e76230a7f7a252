import Polyadic.Proofs.Template.Pieces

/-!
# Resolving is depth-first evaluation

Resolving replaces the first placeholder of a text and scans the text again. `evaluate` goes through the
pieces of a text from left to right instead, and into the text of each name before it goes on, without a
budget. On well-delimited texts both are the same (`expands`, `resolve_eq_evaluate`): what a replacement
makes of the pieces in front has no dollar sign, so it neither forms nor splits a token, and every
replacement uses up one token of the budget.
-/

namespace Polyadic.Template

/-- The text that pieces stand for: a token stands for the evaluated text that its name is bound to. `path`
are the names whose texts are being evaluated around these pieces. -/
def evaluate (scopes : Scopes) (template : String) (path : List String) :
    List Piece → Except Error (List Char)
  | [] => .ok []
  | .literal chars _ :: rest => (evaluate scopes template path rest).map (chars ++ ·)
  | .token name _ _ :: rest =>
    if _fresh : name ∈ path then .error (.cyclic name template)
    else
      match _found : scopes.lookup name with
      | none => .error (.unbound name template)
      | some value =>
        match evaluate scopes template (name :: path) (pieces value.toList) with
        | .error e => .error e
        | .ok meaning => (evaluate scopes template path rest).map (meaning ++ ·)
termination_by ps => (unused scopes path, ps.length)
decreasing_by
  · exact Prod.Lex.right _ (by simp)
  · exact Prod.Lex.left _ _ (unused_cons_lt (Scopes.mem_boundNames_of_lookup _found) _fresh)
  · exact Prod.Lex.right _ (by simp)

section Map

variable {ε α β : Type} {f : α → β} {x : Except ε α}

lemma map_eq_ok {b : β} : x.map f = .ok b ↔ ∃ a, x = .ok a ∧ f a = b := by
  cases x <;> simp [Except.map]

lemma map_eq_error {e : ε} : x.map f = .error e ↔ x = .error e := by
  cases x <;> simp [Except.map]

lemma exists_map_eq_ok : (∃ b, x.map f = .ok b) ↔ ∃ a, x = .ok a := by
  cases x <;> simp [Except.map]

end Map

section Equations

variable {scopes : Scopes} {template : String} {path : List String} {name value : String}

section Evaluate

variable {nonempty : name.toList ≠ []} {plain : '$' ∉ name.toList} {rest : List Piece}

lemma evaluate_cyclic (h : name ∈ path) :
    evaluate scopes template path (.token name nonempty plain :: rest) =
      .error (.cyclic name template) := by
  rw [evaluate, dif_pos h]

lemma evaluate_unbound (fresh : name ∉ path) (found : scopes.lookup name = none) :
    evaluate scopes template path (.token name nonempty plain :: rest) =
      .error (.unbound name template) := by
  rw [evaluate, dif_neg fresh]
  split
  · rfl
  · rename_i h
    cases found.symm.trans h

lemma evaluate_bound (fresh : name ∉ path) (found : scopes.lookup name = some value) :
    evaluate scopes template path (.token name nonempty plain :: rest) =
      (evaluate scopes template (name :: path) (pieces value.toList)).bind fun meaning =>
        (evaluate scopes template path rest).map (meaning ++ ·) := by
  rw [evaluate, dif_neg fresh]
  split
  · rename_i h
    cases found.symm.trans h
  · rename_i h
    cases found.symm.trans h
    cases evaluate scopes template (name :: path) (pieces value.toList) <;> rfl

end Evaluate

section Expand

variable {left : Nat} {chars before after : List Char}

lemma expand_none (h : firstPlaceholder? chars = none) :
    expand scopes template path left chars = .ok chars := by
  rw [expand, h]

lemma expand_stopped (h : firstPlaceholder? chars = some ⟨before, name.toList, after⟩)
    (stop : left = 0 ∨ name ∈ path) :
    expand scopes template path left chars = .error (.cyclic name template) := by
  rw [expand, h]
  simp only [String.ofList_toList, stop, ↓reduceDIte]

lemma expand_unbound (h : firstPlaceholder? chars = some ⟨before, name.toList, after⟩)
    (budgeted : left ≠ 0) (fresh : name ∉ path) (found : scopes.lookup name = none) :
    expand scopes template path left chars = .error (.unbound name template) := by
  have runs : ¬ (left = 0 ∨ name ∈ path) := not_or.mpr ⟨budgeted, fresh⟩
  rw [expand, h]
  simp only [String.ofList_toList, runs, ↓reduceDIte]
  split
  · rfl
  · rename_i h'
    rw [String.ofList_toList] at h'
    cases found.symm.trans h'

lemma expand_bound (h : firstPlaceholder? chars = some ⟨before, name.toList, after⟩)
    (budgeted : left ≠ 0) (fresh : name ∉ path) (found : scopes.lookup name = some value) :
    expand scopes template path left chars =
      (expand scopes template (name :: path) (budget value.toList) value.toList).bind fun resolved =>
        expand scopes template path (left - 1) (before ++ resolved ++ after) := by
  have runs : ¬ (left = 0 ∨ name ∈ path) := not_or.mpr ⟨budgeted, fresh⟩
  rw [expand, h]
  simp only [String.ofList_toList, runs, ↓reduceDIte]
  split
  · rename_i h'
    rw [String.ofList_toList] at h'
    cases found.symm.trans h'
  · rename_i h'
    rw [String.ofList_toList] at h'
    cases found.symm.trans h'
    cases expand scopes template (name :: path) (budget value.toList) value.toList <;> rfl

/-- Induction along the calls of `expand`, with a case for each way in which one goes on or ends. -/
@[elab_as_elim]
lemma expand_induction (scopes : Scopes) (template : String)
    {motive : List String → Nat → List Char → Prop}
    (plain : ∀ path left chars, firstPlaceholder? chars = none → motive path left chars)
    (stopped : ∀ path left chars before name after,
      firstPlaceholder? chars = some ⟨before, String.toList name, after⟩ →
      left = 0 ∨ name ∈ path → motive path left chars)
    (unbound : ∀ path left chars before name after,
      firstPlaceholder? chars = some ⟨before, String.toList name, after⟩ →
      left ≠ 0 → name ∉ path → scopes.lookup name = none → motive path left chars)
    (failed : ∀ path left chars before name after value e,
      firstPlaceholder? chars = some ⟨before, String.toList name, after⟩ →
      left ≠ 0 → name ∉ path → scopes.lookup name = some value →
      expand scopes template (name :: path) (budget value.toList) value.toList = .error e →
      motive (name :: path) (budget value.toList) value.toList → motive path left chars)
    (spliced : ∀ path left chars before name after value resolved,
      firstPlaceholder? chars = some ⟨before, String.toList name, after⟩ →
      left ≠ 0 → name ∉ path → scopes.lookup name = some value →
      expand scopes template (name :: path) (budget value.toList) value.toList = .ok resolved →
      motive (name :: path) (budget value.toList) value.toList →
      motive path (left - 1) (before ++ resolved ++ after) → motive path left chars)
    (path : List String) (left : Nat) (chars : List Char) : motive path left chars := by
  have asString {chars before name after : List Char}
      (h : firstPlaceholder? chars = some ⟨before, name, after⟩) :
      firstPlaceholder? chars = some ⟨before, (String.ofList name).toList, after⟩ := by
    rw [h, String.toList_ofList]
  induction path, left, chars using expand.induct scopes template with
  | case1 path left chars none => exact plain path left chars none
  | case2 path left chars before name after found =>
    rename_i stop
    exact stopped path left chars before _ after (asString found) stop
  | case3 path left chars before name after found =>
    rename_i runs missing
    obtain ⟨budgeted, fresh⟩ := not_or.mp runs
    exact unbound path left chars before _ after (asString found) budgeted fresh missing
  | case4 path left chars before name after found =>
    rename_i runs value hvalue e herror ih
    obtain ⟨budgeted, fresh⟩ := not_or.mp runs
    exact failed path left chars before _ after value e (asString found) budgeted fresh hvalue herror ih
  | case5 path left chars before name after found =>
    rename_i runs value hvalue resolved hresolved ih ih'
    obtain ⟨budgeted, fresh⟩ := not_or.mp runs
    exact spliced path left chars before _ after value resolved (asString found) budgeted fresh hvalue
      hresolved ih ih'

end Expand

end Equations

variable {scopes : Scopes} {template : String}

/-- Every text that a name means is well-delimited. -/
def WellBound (scopes : Scopes) : Prop :=
  ∀ name value, scopes.lookup name = some value → WellDelimited value.toList

/-- How pieces come to their meaning, when they have one. -/
inductive Evaluates (scopes : Scopes) : List String → List Piece → List Char → Prop where
  | nil {path} :
    Evaluates scopes path [] []
  | literal {path chars plain rest meaning} :
    Evaluates scopes path rest meaning →
    Evaluates scopes path (.literal chars plain :: rest) (chars ++ meaning)
  | token {path name nonempty plain rest value inner meaning} :
    name ∉ path →
    scopes.lookup name = some value →
    Evaluates scopes (name :: path) (pieces value.toList) inner →
    Evaluates scopes path rest meaning →
    Evaluates scopes path (.token name nonempty plain :: rest) (inner ++ meaning)

lemma Evaluates.of_ok {path : List String} {ps : List Piece} {meaning : List Char}
    (h : evaluate scopes template path ps = .ok meaning) : Evaluates scopes path ps meaning := by
  induction path, ps using evaluate.induct scopes template generalizing meaning with
  | case1 path =>
    rw [evaluate] at h
    cases h
    exact .nil
  | case2 path chars plain rest ih =>
    rw [evaluate] at h
    obtain ⟨m, hm, rfl⟩ := map_eq_ok.mp h
    exact .literal (ih hm)
  | case3 path name nonempty plain rest active =>
    rw [evaluate_cyclic active] at h
    cases h
  | case4 path name nonempty plain rest fresh found =>
    rw [evaluate_unbound fresh found] at h
    cases h
  | case5 path name nonempty plain rest fresh value found e failed ih =>
    rw [evaluate_bound fresh found, failed] at h
    cases h
  | case6 path name nonempty plain rest fresh value found inner evaluated ih ih' =>
    rw [evaluate_bound fresh found, evaluated] at h
    obtain ⟨m, hm, rfl⟩ := map_eq_ok.mp h
    exact .token fresh found (ih evaluated) (ih' hm)

lemma Evaluates.ok {path : List String} {ps : List Piece} {meaning : List Char}
    (h : Evaluates scopes path ps meaning) : evaluate scopes template path ps = .ok meaning := by
  induction h with
  | nil => rw [evaluate]
  | literal _ ih =>
    rw [evaluate, ih]
    rfl
  | token fresh found _ _ ih ih' =>
    rw [evaluate_bound fresh found, ih, ih']
    rfl

lemma Evaluates.plain {path : List String} {ps : List Piece} {meaning : List Char}
    (h : Evaluates scopes path ps meaning) : '$' ∉ meaning := by
  induction h with
  | nil => exact List.not_mem_nil
  | @literal path chars plain rest meaning _ ih =>
    simp only [List.mem_append, plain, ih, or_self, not_false_eq_true]
  | token _ _ _ _ ih ih' => simp only [List.mem_append, ih, ih', or_self, not_false_eq_true]

/-- A meaning does not depend on the path. -/
lemma Evaluates.of_subset {path path' : List String} {ps : List Piece} {meaning : List Char}
    (h : Evaluates scopes path ps meaning) (sub : path' ⊆ path) :
    Evaluates scopes path' ps meaning := by
  induction h generalizing path' with
  | nil => exact .nil
  | literal _ ih => exact .literal (ih sub)
  | @token path name nonempty plain rest value inner meaning fresh found _ _ ih ih' =>
    exact .token (fun hmem => fresh (sub hmem)) found (ih (List.cons_subset_cons name sub)) (ih' sub)

/-- Replacing the tokens of a text one after the other evaluates its pieces, if the budget covers the
tokens. `before` is what the replacements so far have made of the pieces in front. -/
def Expands (scopes : Scopes) (template : String) (path : List String) (ps : List Piece) : Prop :=
  ∀ {before tail left}, '$' ∉ before → IsTail tail → (Piece.names ps).length ≤ left →
    expand scopes template path left (before ++ (text ps ++ tail)) =
      (evaluate scopes template path ps).map fun meaning => before ++ (meaning ++ tail)

/-- The text that a name means is evaluated within its own budget. -/
lemma Expands.value {path : List String} {value : String} (h : WellDelimited value.toList)
    (expands : Expands scopes template path (pieces value.toList)) :
    expand scopes template path (budget value.toList) value.toList =
      evaluate scopes template path (pieces value.toList) := by
  have covered := names_le_budget (.inl rfl) (pieces value.toList)
  have same := expands List.not_mem_nil (.inl rfl) covered
  rw [List.nil_append, List.append_nil, text_pieces h] at same
  rw [same]
  cases evaluate scopes template path (pieces value.toList) with
  | error e => rfl
  | ok meaning =>
    show Except.ok (meaning ++ []) = _
    rw [List.append_nil]

theorem expands (bound : WellBound scopes) (path : List String) (ps : List Piece) :
    Expands scopes template path ps := by
  induction path, ps using evaluate.induct scopes template with
  | case1 path =>
    intro before tail left plain htail covered
    rw [evaluate]
    exact expand_none (firstPlaceholder?_tail plain htail)
  | case2 path chars hchars rest ih =>
    intro before tail left plain htail covered
    have both : '$' ∉ before ++ chars := by
      simp only [List.mem_append, plain, hchars, or_self, not_false_eq_true]
    rw [text_cons, Piece.text, List.append_assoc, ← List.append_assoc, ih both htail covered, evaluate]
    cases evaluate scopes template path rest with
    | error e => rfl
    | ok meaning =>
      show Except.ok _ = Except.ok _
      simp only [List.append_assoc]
  | case3 path name nonempty hname rest active =>
    intro before tail left plain htail covered
    rw [evaluate_cyclic active, text_cons, Piece.text_token_append]
    exact expand_stopped (firstPlaceholder?_token plain nonempty hname) (.inr active)
  | case4 path name nonempty hname rest fresh found =>
    intro before tail left plain htail covered
    rw [evaluate_unbound fresh found, text_cons, Piece.text_token_append]
    exact expand_unbound (firstPlaceholder?_token plain nonempty hname)
      (Nat.ne_zero_of_lt covered) fresh found
  | case5 path name nonempty hname rest fresh value found e failed ih =>
    intro before tail left plain htail covered
    rw [evaluate_bound fresh found, text_cons, Piece.text_token_append,
      expand_bound (firstPlaceholder?_token plain nonempty hname) (Nat.ne_zero_of_lt covered) fresh
        found, ih.value (bound name value found), failed]
    rfl
  | case6 path name nonempty hname rest fresh value found meaning evaluated ih ih' =>
    intro before tail left plain htail covered
    -- The replaced token joins the part of the text that has no dollar sign.
    have both : '$' ∉ before ++ meaning := by
      simp only [List.mem_append, plain, (Evaluates.of_ok evaluated).plain, or_self, not_false_eq_true]
    have left_covered : (Piece.names rest).length ≤ left - 1 := Nat.le_sub_one_of_lt covered
    rw [evaluate_bound fresh found, text_cons, Piece.text_token_append,
      expand_bound (firstPlaceholder?_token plain nonempty hname) (Nat.ne_zero_of_lt covered) fresh
        found, ih.value (bound name value found), evaluated]
    show expand scopes template path (left - 1) (before ++ meaning ++ (text rest ++ tail)) =
      ((evaluate scopes template path rest).map (meaning ++ ·)).map _
    rw [ih' both htail left_covered]
    cases evaluate scopes template path rest with
    | error e => rfl
    | ok others =>
      show Except.ok _ = Except.ok _
      simp only [List.append_assoc]

/-- Resolving a well-delimited template, with or without a dollar sign that pairs with none, is evaluating
its pieces. -/
theorem resolve_eq_evaluate (bound : WellBound scopes) {ps : List Piece} {tail : List Char}
    (htail : IsTail tail) (h : template.toList = text ps ++ tail) :
    resolve scopes template =
      (evaluate scopes template [] ps).map fun meaning => String.ofList (meaning ++ tail) := by
  have covered := names_le_budget htail ps
  have same : expand scopes template [] _ ([] ++ (text ps ++ tail)) = _ :=
    expands bound [] ps List.not_mem_nil htail covered
  rw [List.nil_append] at same
  unfold resolve
  rw [h, same]
  cases evaluate scopes template [] ps <;> rfl

end Polyadic.Template
