import Polyadic.Proofs.Template.Resolved

/-!
# Calls of the resolver

Resolving the text of a name is a call inside the call for the text in which the name stands. Here a run is
written out move by move: `Stack` is the innermost call with the calls that wait for it, `Step` one move and
`Ends` the end of a run. Nothing in them bounds a run; a call counts its replacements upwards and compares
the count with its budget.

`InBounds` is what every move keeps. `expand_runs` says that a run comes to an end with the result of
`expand`, and by `Step.unique` there is no other run. The main statement is `resolve_terminates`.
-/

namespace Polyadic.Template

/-- A call: the text that it has started with, how many replacements it has made, and its text now. -/
structure Call where
  initial : List Char
  made : Nat
  text : List Char

/-- A call before its first replacement. -/
def Call.start (text : List Char) : Call :=
  ⟨text, 0, text⟩

/-- A call that waits for the text of its first placeholder. -/
structure Waiting where
  call : Call
  before : List Char
  name : String
  after : List Char

/-- The call when it has the text that it waits for. -/
def Waiting.resume (waiting : Waiting) (resolved : List Char) : Call where
  initial := waiting.call.initial
  made := waiting.call.made + 1
  text := waiting.before ++ resolved ++ waiting.after

/-- The innermost call and the calls around it, from the inside to the outside. -/
structure Stack where
  current : Call
  around : List Waiting

namespace Stack

/-- The stack at the start of resolving a template. -/
def start (template : String) : Stack :=
  ⟨.start template.toList, []⟩

/-- The names on the active path. -/
def path (stack : Stack) : List String :=
  stack.around.map (·.name)

/-- All calls that have begun and not ended. -/
def calls (stack : Stack) : List Call :=
  stack.current :: stack.around.map (·.call)

end Stack

variable {scopes : Scopes} {template : String}

/-- One move: the text of the first placeholder becomes a call of its own, or a call that has no
placeholder left hands its text to the call around it. -/
inductive Step (scopes : Scopes) : Stack → Stack → Prop where
  | call {call around before name after value} :
    firstPlaceholder? call.text = some ⟨before, name.toList, after⟩ →
    call.made ≠ budget call.initial →
    name ∉ (Stack.mk call around).path →
    scopes.lookup name = some value →
    Step scopes ⟨call, around⟩ ⟨.start value.toList, ⟨call, before, name, after⟩ :: around⟩
  | splice {call waiting around} :
    firstPlaceholder? call.text = none →
    Step scopes ⟨call, waiting :: around⟩ ⟨waiting.resume call.text, around⟩

/-- The end of a run and its result. -/
inductive Ends (scopes : Scopes) (template : String) : Stack → Except Error (List Char) → Prop where
  | done {call} :
    firstPlaceholder? call.text = none →
    Ends scopes template ⟨call, []⟩ (.ok call.text)
  | cyclic {call around before name after} :
    firstPlaceholder? call.text = some ⟨before, name.toList, after⟩ →
    call.made = budget call.initial ∨ name ∈ (Stack.mk call around).path →
    Ends scopes template ⟨call, around⟩ (.error (.cyclic name template))
  | unbound {call around before name after} :
    firstPlaceholder? call.text = some ⟨before, name.toList, after⟩ →
    call.made ≠ budget call.initial →
    name ∉ (Stack.mk call around).path →
    scopes.lookup name = none →
    Ends scopes template ⟨call, around⟩ (.error (.unbound name template))

/-- Any number of moves. -/
abbrev Runs (scopes : Scopes) : Stack → Stack → Prop :=
  Relation.ReflTransGen (Step scopes)

/-! ## What every move keeps -/

/-- The names on the path are distinct and bound, and no call exceeds its budget. -/
structure InBounds (scopes : Scopes) (stack : Stack) : Prop where
  distinct : stack.path.Nodup
  bound : ∀ name ∈ stack.path, ∃ value, scopes.lookup name = some value
  current : stack.current.made ≤ budget stack.current.initial
  around : ∀ waiting ∈ stack.around, waiting.call.made < budget waiting.call.initial

namespace InBounds

variable {stack stack' : Stack}

lemma start : InBounds scopes (.start template) where
  distinct := List.nodup_nil
  bound := nofun
  current := Nat.zero_le _
  around := nofun

lemma step (h : InBounds scopes stack) (st : Step scopes stack stack') : InBounds scopes stack' := by
  cases st with
  | @call call around before name after value found budgeted fresh hvalue =>
    constructor
    · exact List.nodup_cons.mpr ⟨fresh, h.distinct⟩
    · intro other hmem
      obtain rfl | hmem := List.mem_cons.mp hmem
      · exact ⟨value, hvalue⟩
      · exact h.bound other hmem
    · exact Nat.zero_le _
    · intro waiting hmem
      obtain rfl | hmem := List.mem_cons.mp hmem
      · exact lt_of_le_of_ne h.current budgeted
      · exact h.around waiting hmem
  | @splice call waiting around found =>
    constructor
    · exact (List.nodup_cons.mp h.distinct).2
    · intro name hmem
      exact h.bound name (List.mem_cons_of_mem _ hmem)
    · exact h.around waiting List.mem_cons_self
    · intro other hmem
      exact h.around other (List.mem_cons_of_mem _ hmem)

lemma runs (h : InBounds scopes stack) (run : Runs scopes stack stack') : InBounds scopes stack' := by
  induction run with
  | refl => exact h
  | tail _ st ih => exact ih.step st

/-- Calls are nested no deeper than there are bound names. -/
lemma depth_le (h : InBounds scopes stack) :
    stack.around.length ≤ scopes.boundNames.toFinset.card := by
  have sub : stack.path.toFinset ⊆ scopes.boundNames.toFinset := by
    intro name hmem
    obtain ⟨value, hvalue⟩ := h.bound name (List.mem_toFinset.mp hmem)
    exact List.mem_toFinset.mpr (Scopes.mem_boundNames_of_lookup hvalue)
  calc
    stack.around.length = stack.path.length := (List.length_map _).symm
    _ = stack.path.toFinset.card := (List.toFinset_card_of_nodup h.distinct).symm
    _ ≤ scopes.boundNames.toFinset.card := Finset.card_le_card sub

lemma made_le (h : InBounds scopes stack) {call : Call} (hmem : call ∈ stack.calls) :
    call.made ≤ budget call.initial := by
  obtain rfl | hmem := List.mem_cons.mp hmem
  · exact h.current
  · obtain ⟨waiting, hwaiting, rfl⟩ := List.mem_map.mp hmem
    exact (h.around waiting hwaiting).le

end InBounds

/-! ## Every run ends -/

lemma placeholder_unique {text before before' after after' : List Char} {name name' : String}
    (h : firstPlaceholder? text = some ⟨before, name.toList, after⟩)
    (h' : firstPlaceholder? text = some ⟨before', name'.toList, after'⟩) :
    before = before' ∧ name = name' ∧ after = after' := by
  obtain ⟨hbefore, hname, hafter⟩ := Placeholder.mk.inj (Option.some.inj (h.symm.trans h'))
  exact ⟨hbefore, String.toList_injective hname, hafter⟩

/-- From every stack there is at most one move. -/
lemma Step.unique {stack s s' : Stack} (h : Step scopes stack s) (h' : Step scopes stack s') :
    s = s' := by
  cases h with
  | call found _ _ hvalue =>
    cases h' with
    | call found' _ _ hvalue' =>
      obtain ⟨rfl, rfl, rfl⟩ := placeholder_unique found found'
      cases hvalue.symm.trans hvalue'
      rfl
    | splice none => cases found.symm.trans none
  | splice none =>
    cases h' with
    | call found _ _ _ => cases none.symm.trans found
    | splice _ => rfl

/-- No move is left at the end of a run. -/
lemma Ends.stuck {stack s : Stack} {result : Except Error (List Char)}
    (h : Ends scopes template stack result) : ¬ Step scopes stack s := by
  intro st
  cases h with
  | done none =>
    cases st with
    | call found _ _ _ => cases none.symm.trans found
  | cyclic found stop =>
    cases st with
    | call found' budgeted fresh _ =>
      obtain ⟨-, rfl, -⟩ := placeholder_unique found found'
      exact stop.elim budgeted fresh
    | splice none => cases found.symm.trans none
  | unbound found _ _ missing =>
    cases st with
    | call found' _ _ hvalue =>
      obtain ⟨-, rfl, -⟩ := placeholder_unique found found'
      cases missing.symm.trans hvalue
    | splice none => cases found.symm.trans none

/-- Where one run comes to an end, no run is endless. -/
lemma acc_of_ends {stack final : Stack} {result : Except Error (List Char)}
    (run : Runs scopes stack final) (h : Ends scopes template final result) :
    Acc (flip (Step scopes)) stack := by
  -- Backwards along the run: its move is the only one, so what holds behind it holds before it.
  induction run using Relation.ReflTransGen.head_induction_on with
  | refl => exact ⟨_, fun s st => absurd st h.stuck⟩
  | head st _ ih =>
    constructor
    intro s st'
    cases st.unique st'
    exact ih

/-- From the stack the innermost call comes to a text, with the same calls around it, or the run ends with
an error. -/
def Arrives (scopes : Scopes) (template : String) (stack : Stack) : Except Error (List Char) → Prop
  | .ok resolved => ∃ call, call.text = resolved ∧ Runs scopes stack ⟨call, stack.around⟩
  | .error e => ∃ s, Runs scopes stack s ∧ Ends scopes template s (.error e)

lemma Arrives.of_runs {call call' : Call} {around : List Waiting} {result : Except Error (List Char)}
    (run : Runs scopes ⟨call, around⟩ ⟨call', around⟩)
    (h : Arrives scopes template ⟨call', around⟩ result) :
    Arrives scopes template ⟨call, around⟩ result := by
  cases result with
  | ok resolved =>
    obtain ⟨call'', htext, run'⟩ := h
    exact ⟨call'', htext, run.trans run'⟩
  | error e =>
    obtain ⟨s, run', ends⟩ := h
    exact ⟨s, run.trans run', ends⟩

/-- A call comes to what `expand` makes of its text. -/
theorem expand_runs (path : List String) (left : Nat) (text : List Char) :
    ∀ {call around}, call.text = text → call.made + left = budget call.initial →
      (Stack.mk call around).path = path →
      Arrives scopes template ⟨call, around⟩ (expand scopes template path left text) := by
  -- `expand` counts down what is left, the call counts up what is made: their sum stays the budget.
  induction path, left, text using expand_induction scopes template with
  | plain path left text none =>
    intro call around htext counted hpath
    rw [expand_none none]
    exact ⟨call, htext, .refl⟩
  | stopped path left text before name after found stop =>
    rintro call around rfl counted rfl
    rw [expand_stopped found stop]
    have exhausted : left = 0 → call.made = budget call.initial := by
      intro h
      rw [← counted, h, Nat.add_zero]
    exact ⟨_, .refl, .cyclic found (stop.imp_left exhausted)⟩
  | unbound path left text before name after found budgeted fresh missing =>
    rintro call around rfl counted rfl
    rw [expand_unbound found budgeted fresh missing]
    have budgeted' : call.made ≠ budget call.initial := by omega
    exact ⟨_, .refl, .unbound found budgeted' fresh missing⟩
  | failed path left text before name after value e found budgeted fresh hvalue failed ih =>
    rintro call around rfl counted rfl
    rw [expand_bound found budgeted fresh hvalue, failed]
    have budgeted' : call.made ≠ budget call.initial := by omega
    have inner := @ih (.start value.toList) (⟨call, before, name, after⟩ :: around) rfl
      (Nat.zero_add _) rfl
    rw [failed] at inner
    obtain ⟨s, run, ends⟩ := inner
    exact ⟨s, .head (.call found budgeted' fresh hvalue) run, ends⟩
  | spliced path left text before name after value resolved found budgeted fresh hvalue done ih ih' =>
    rintro call around rfl counted rfl
    rw [expand_bound found budgeted fresh hvalue, done]
    have budgeted' : call.made ≠ budget call.initial := by omega
    let waiting : Waiting := ⟨call, before, name, after⟩
    have inner := @ih (.start value.toList) (waiting :: around) rfl (Nat.zero_add _) rfl
    rw [done] at inner
    obtain ⟨call', rfl, run⟩ := inner
    -- The inner call runs, its text is spliced in, and this call goes on with one replacement more.
    have replaced : Runs scopes ⟨call, around⟩ ⟨waiting.resume call'.text, around⟩ :=
      .head (.call found budgeted' fresh hvalue) (run.tail (.splice (firstPlaceholder?_expand done)))
    have counted' : (waiting.resume call'.text).made + (left - 1) = budget call.initial := by
      show call.made + 1 + (left - 1) = _
      omega
    exact (@ih' (waiting.resume call'.text) around rfl counted' rfl).of_runs replaced

/-- The run that resolves a template ends with its result. -/
lemma resolve_runs (scopes : Scopes) (template : String) :
    ∃ s result, Runs scopes (.start template) s ∧ Ends scopes template s result ∧
      resolve scopes template = result.map String.ofList := by
  have run := @expand_runs scopes template [] (budget template.toList) template.toList
    (.start template.toList) [] rfl (Nat.zero_add _) rfl
  unfold resolve
  cases h : expand scopes template [] (budget template.toList) template.toList with
  | ok resolved =>
    rw [h] at run
    obtain ⟨call, rfl, run⟩ := run
    exact ⟨_, _, run, .done (firstPlaceholder?_expand h), rfl⟩
  | error e =>
    rw [h] at run
    obtain ⟨s, run, ends⟩ := run
    exact ⟨s, _, run, ends, rfl⟩

/-- Resolving a template comes to an end, whatever is bound to whatever. While it runs, the names on the
active path are distinct and bound, so that calls are nested no deeper than there are bound names, and no
call makes more replacements than its budget. A name that is not on the path is reported as cyclic only by
a call that has used up its budget and has a placeholder left. -/
theorem resolve_terminates (scopes : Scopes) (template : String) :
    Acc (flip (Step scopes)) (.start template) ∧
      (∃ s result, Runs scopes (.start template) s ∧ Ends scopes template s result ∧
        resolve scopes template = result.map String.ofList) ∧
      ∀ s, Runs scopes (.start template) s →
        (s.path.Nodup ∧ (∀ name ∈ s.path, ∃ value, scopes.lookup name = some value) ∧
          s.around.length ≤ scopes.boundNames.toFinset.card) ∧
        (∀ call ∈ s.calls, call.made ≤ placeholderCount call.initial + expansionLimit) ∧
        ∀ name template', Ends scopes template s (.error (.cyclic name template')) → name ∉ s.path →
          s.current.made = placeholderCount s.current.initial + expansionLimit ∧
            ∃ before after,
              firstPlaceholder? s.current.text = some ⟨before, name.toList, after⟩ := by
  obtain ⟨final, result, run, ends, hresult⟩ := resolve_runs scopes template
  refine ⟨acc_of_ends run ends, ⟨final, result, run, ends, hresult⟩, ?_⟩
  intro s reached
  have bounds := InBounds.start.runs reached
  refine ⟨⟨bounds.distinct, bounds.bound, bounds.depth_le⟩, fun call => bounds.made_le, ?_⟩
  intro name template' reported fresh
  cases reported with
  | cyclic found stop => exact ⟨stop.resolve_right fresh, _, _, found⟩

/-- Two texts whose dollar signs pair with those around them again and again. -/
def joining : Scopes :=
  [.ofList [("a", "$$b"), ("b", "a$$")]]

/-- Here one name makes way for the other until the budget is used up. -/
lemma expand_joining (template : String) (left : Nat) :
    expand joining template [] left "$a$$".toList =
        .error (.cyclic (if left % 2 = 0 then "a" else "b") template) ∧
      expand joining template [] left "$$b$".toList =
        .error (.cyclic (if left % 2 = 0 then "b" else "a") template) := by
  have a : firstPlaceholder? "$a$$".toList = some ⟨[], "a".toList, ['$']⟩ := by decide
  have b : firstPlaceholder? "$$b$".toList = some ⟨['$'], "b".toList, []⟩ := by decide
  have aBound : joining.lookup "a" = some "$$b" := by cbv
  have bBound : joining.lookup "b" = some "a$$" := by cbv
  have aPlain : firstPlaceholder? "$$b".toList = none := by decide
  have bPlain : firstPlaceholder? "a$$".toList = none := by decide
  induction left with
  | zero => exact ⟨expand_stopped a (.inl rfl), expand_stopped b (.inl rfl)⟩
  | succ left ih =>
    obtain ⟨iha, ihb⟩ := ih
    have parity : (left + 1) % 2 = 0 ↔ ¬ left % 2 = 0 := by omega
    rw [expand_bound a (Nat.succ_ne_zero left) List.not_mem_nil aBound, expand_none aPlain,
      expand_bound b (Nat.succ_ne_zero left) List.not_mem_nil bBound, expand_none bPlain]
    simp only [parity, ite_not]
    exact ⟨ihb, iha⟩

example : resolve joining "$a$$" = .error (.cyclic "b" "$a$$") := by
  have counted : budget "$a$$".toList = 1025 := by cbv
  rw [resolve, counted, (expand_joining _ _).1]
  rfl

end Polyadic.Template
