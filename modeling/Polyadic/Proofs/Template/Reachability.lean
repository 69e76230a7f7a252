import Polyadic.Proofs.Template.DepthFirst

/-!
# Names that a template reaches

Names refer to names: `Reaches` says which names a text comes to, through the texts of the names in it. A
text has a meaning exactly if every name that it reaches is bound and none of these reaches itself
(`evaluate_ok_iff`); the meaning of a text is put together from the meanings of its tokens
(`Evaluates.eq_meanings`); and a failure names the name at fault (`evaluate_error`). The main statement
`resolve_depthFirst` puts these together.
-/

namespace Polyadic.Template

/-- The text comes to the name, directly or through the texts of names. -/
inductive Reaches (scopes : Scopes) : List Piece → String → Prop where
  | here {ps name} :
    name ∈ Piece.names ps →
    Reaches scopes ps name
  | through {ps name value name'} :
    name ∈ Piece.names ps →
    scopes.lookup name = some value →
    Reaches scopes (pieces value.toList) name' →
    Reaches scopes ps name'

/-- The text of the name comes back to the name. -/
def ReachesItself (scopes : Scopes) (name : String) : Prop :=
  ∃ value, scopes.lookup name = some value ∧ Reaches scopes (pieces value.toList) name

section Reaches

variable {scopes : Scopes} {ps rest : List Piece} {name name' value : String}

lemma not_reaches_nil : ¬ Reaches scopes [] name := by
  intro h
  cases h with
  | here h => cases h
  | through h => cases h

lemma Reaches.mono (sub : Piece.names rest ⊆ Piece.names ps) (h : Reaches scopes rest name) :
    Reaches scopes ps name := by
  cases h with
  | here h => exact .here (sub h)
  | through h found inner => exact .through (sub h) found inner

lemma reaches_literal {chars : List Char} {plain : '$' ∉ chars} :
    Reaches scopes (.literal chars plain :: rest) name ↔ Reaches scopes rest name :=
  ⟨.mono fun _ h => h, .mono fun _ h => h⟩

/-- A token reaches its name and what the text of the name reaches. -/
lemma reaches_token {nonempty : name.toList ≠ []} {plain : '$' ∉ name.toList} :
    Reaches scopes (.token name nonempty plain :: rest) name' ↔
      name' = name ∨ (∃ value, scopes.lookup name = some value ∧
        Reaches scopes (pieces value.toList) name') ∨ Reaches scopes rest name' := by
  constructor
  · intro h
    cases h with
    | here h =>
      obtain rfl | h := List.mem_cons.mp h
      · exact .inl rfl
      · exact .inr (.inr (.here h))
    | through h found inner =>
      obtain rfl | h := List.mem_cons.mp h
      · exact .inr (.inl ⟨_, found, inner⟩)
      · exact .inr (.inr (.through h found inner))
  · rintro (rfl | ⟨value, found, inner⟩ | h)
    · exact .here List.mem_cons_self
    · exact .through List.mem_cons_self found inner
    · exact h.mono (List.subset_cons_self _ _)

end Reaches

/-- The name is bound, is not one of those being evaluated, and does not reach itself. -/
structure Sane (scopes : Scopes) (path : List String) (name : String) : Prop where
  bound : ∃ value, scopes.lookup name = some value
  fresh : name ∉ path
  acyclic : ¬ ReachesItself scopes name

/-- The names that a token reaches are sane if, with its name on the path, those in its text are. -/
lemma sane_token {scopes : Scopes} {path : List String} {rest : List Piece} {name value : String}
    {nonempty : name.toList ≠ []} {plain : '$' ∉ name.toList}
    (fresh : name ∉ path) (found : scopes.lookup name = some value) :
    (∀ name', Reaches scopes (.token name nonempty plain :: rest) name' → Sane scopes path name') ↔
      (∀ name', Reaches scopes (pieces value.toList) name' → Sane scopes (name :: path) name') ∧
        ∀ name', Reaches scopes rest name' → Sane scopes path name' := by
  constructor
  · intro h
    constructor
    · intro name' inner
      have sane := h name' (reaches_token.mpr (.inr (.inl ⟨value, found, inner⟩)))
      -- A name met in its own text would reach itself.
      refine ⟨sane.bound, fun hmem => ?_, sane.acyclic⟩
      obtain rfl | hmem := List.mem_cons.mp hmem
      · exact sane.acyclic ⟨value, found, inner⟩
      · exact sane.fresh hmem
    · intro name' outer
      exact h name' (reaches_token.mpr (.inr (.inr outer)))
  · intro ⟨inside, behind⟩ name' h
    obtain rfl | ⟨value', found', inner⟩ | outer := reaches_token.mp h
    · refine ⟨⟨value, found⟩, fresh, ?_⟩
      intro ⟨value', found', inner⟩
      cases found.symm.trans found'
      exact (inside _ inner).fresh List.mem_cons_self
    · cases found.symm.trans found'
      have sane := inside name' inner
      exact ⟨sane.bound, fun hmem => sane.fresh (List.mem_cons_of_mem _ hmem), sane.acyclic⟩
    · exact behind name' outer

variable {scopes : Scopes} {template : String}

/-- A text has a meaning if all names that it reaches are bound, are not being evaluated already and do
not reach themselves. -/
theorem evaluate_ok_iff (path : List String) (ps : List Piece) :
    (∃ meaning, evaluate scopes template path ps = .ok meaning) ↔
      ∀ name, Reaches scopes ps name → Sane scopes path name := by
  induction path, ps using evaluate.induct scopes template with
  | case1 path =>
    rw [evaluate]
    exact iff_of_true ⟨[], rfl⟩ fun name h => absurd h not_reaches_nil
  | case2 path chars plain rest ih =>
    simp only [evaluate, exists_map_eq_ok, reaches_literal, ← ih]
  | case3 path name nonempty plain rest active =>
    rw [evaluate_cyclic active]
    refine iff_of_false ?_ fun h => (h name (.here List.mem_cons_self)).fresh active
    rintro ⟨meaning, ⟨⟩⟩
  | case4 path name nonempty plain rest fresh found =>
    rw [evaluate_unbound fresh found]
    refine iff_of_false ?_ fun h => ?_
    · rintro ⟨meaning, ⟨⟩⟩
    · obtain ⟨value, found'⟩ := (h name (.here List.mem_cons_self)).bound
      cases found.symm.trans found'
  | case5 path name nonempty plain rest fresh value found e failed ih =>
    rw [evaluate_bound fresh found, sane_token fresh found, ← ih, failed]
    refine iff_of_false ?_ ?_
    · rintro ⟨meaning, ⟨⟩⟩
    · rintro ⟨⟨meaning, ⟨⟩⟩, _⟩
  | case6 path name nonempty plain rest fresh value found meaning evaluated ih ih' =>
    rw [evaluate_bound fresh found, sane_token fresh found, ← ih, ← ih', evaluated]
    refine exists_map_eq_ok.trans (and_iff_right ?_).symm
    exact ⟨meaning, rfl⟩

/-- What a piece stands for: a token stands for the resolved text that its name is bound to. -/
def Piece.meaning (scopes : Scopes) : Piece → List Char
  | .literal chars _ => chars
  | .token name _ _ =>
    match scopes.lookup name with
    | none => []
    | some value => (resolve scopes value).toOption.elim [] String.toList

/-- The meaning of a text is put together from the meanings of its pieces. -/
theorem Evaluates.eq_meanings (bound : WellBound scopes) {path : List String} {ps : List Piece}
    {meaning : List Char} (h : Evaluates scopes path ps meaning) :
    meaning = ps.flatMap (Piece.meaning scopes) := by
  induction h with
  | nil => rfl
  | literal _ ih => rw [List.flatMap_cons, Piece.meaning, ← ih]
  | @token path name nonempty plain rest value inner meaning fresh found evaluated _ _ ih' =>
    have well := bound name value found
    -- The text of the name, resolved by itself, has the meaning that it has on the path.
    have resolved : resolve scopes value = .ok (String.ofList inner) := by
      rw [resolve_eq_evaluate bound (.inl rfl) (by rw [text_pieces well, List.append_nil]),
        (evaluated.of_subset (List.nil_subset _)).ok]
      show Except.ok (String.ofList (inner ++ [])) = _
      rw [List.append_nil]
    rw [List.flatMap_cons, ← ih', Piece.meaning, found]
    show inner ++ meaning = (resolve scopes value).toOption.elim [] String.toList ++ meaning
    rw [resolved]
    show inner ++ meaning = (String.ofList inner).toList ++ meaning
    rw [String.toList_ofList]

/-- A failure names a name that the text reaches: one that is bound nowhere, or one that is being
evaluated already. -/
theorem evaluate_error {path : List String} {ps : List Piece} {e : Error}
    (h : evaluate scopes template path ps = .error e) :
    ∃ name, Reaches scopes ps name ∧
      ((e = .unbound name template ∧ scopes.lookup name = none) ∨
        (e = .cyclic name template ∧ (name ∈ path ∨ ReachesItself scopes name))) := by
  induction path, ps using evaluate.induct scopes template generalizing e with
  | case1 path =>
    rw [evaluate] at h
    cases h
  | case2 path chars plain rest ih =>
    rw [evaluate] at h
    obtain ⟨name, outer, fault⟩ := ih (map_eq_error.mp h)
    exact ⟨name, reaches_literal.mpr outer, fault⟩
  | case3 path name nonempty plain rest active =>
    rw [evaluate_cyclic active] at h
    cases h
    exact ⟨name, .here List.mem_cons_self, .inr ⟨rfl, .inl active⟩⟩
  | case4 path name nonempty plain rest fresh found =>
    rw [evaluate_unbound fresh found] at h
    cases h
    exact ⟨name, .here List.mem_cons_self, .inl ⟨rfl, found⟩⟩
  | case5 path name nonempty plain rest fresh value found e' failed ih =>
    rw [evaluate_bound fresh found, failed] at h
    cases h
    obtain ⟨name', inner, fault⟩ := ih failed
    refine ⟨name', .through List.mem_cons_self found inner, ?_⟩
    obtain fault | ⟨he, active | itself⟩ := fault
    · exact .inl fault
    · obtain rfl | active := List.mem_cons.mp active
      · exact .inr ⟨he, .inr ⟨value, found, inner⟩⟩
      · exact .inr ⟨he, .inl active⟩
    · exact .inr ⟨he, .inr itself⟩
  | case6 path name nonempty plain rest fresh value found inner evaluated ih ih' =>
    rw [evaluate_bound fresh found, evaluated] at h
    obtain ⟨name', outer, fault⟩ := ih' (map_eq_error.mp h)
    exact ⟨name', reaches_token.mpr (.inr (.inr outer)), fault⟩

lemma resolve_ok_iff (bound : WellBound scopes) {ps : List Piece} {tail : List Char}
    (htail : IsTail tail) (h : template.toList = text ps ++ tail) :
    (∃ resolved, resolve scopes template = .ok resolved) ↔
      ∀ name, Reaches scopes ps name →
        (∃ value, scopes.lookup name = some value) ∧ ¬ ReachesItself scopes name := by
  rw [resolve_eq_evaluate bound htail h]
  refine exists_map_eq_ok.trans ((evaluate_ok_iff [] ps).trans ?_)
  constructor
  · exact fun sane name reached => ⟨(sane name reached).bound, (sane name reached).acyclic⟩
  · exact fun sane name reached => ⟨(sane name reached).1, List.not_mem_nil, (sane name reached).2⟩

/-- Resolving a well-delimited template is depth-first evaluation. It succeeds if every name that the
template reaches is bound and does not reach itself, and puts the meaning of each token in its place then;
otherwise it fails for the first name at which the evaluation fails. The budget plays no part in it. -/
theorem resolve_depthFirst (bound : WellBound scopes) {ps : List Piece} {tail : List Char}
    (htail : IsTail tail) (h : template.toList = text ps ++ tail) :
    resolve scopes template =
        (evaluate scopes template [] ps).map (fun meaning => String.ofList (meaning ++ tail)) ∧
      ((∃ resolved, resolve scopes template = .ok resolved) ↔
        ∀ name, Reaches scopes ps name →
          (∃ value, scopes.lookup name = some value) ∧ ¬ ReachesItself scopes name) ∧
      (∀ resolved, resolve scopes template = .ok resolved →
        resolved.toList = ps.flatMap (Piece.meaning scopes) ++ tail ∧
          ∀ name ∈ Piece.names ps, ∃ value meaning,
            scopes.lookup name = some value ∧ resolve scopes value = .ok meaning) ∧
      ∀ e, resolve scopes template = .error e → ∃ name, Reaches scopes ps name ∧
        ((e = .unbound name template ∧ scopes.lookup name = none) ∨
          (e = .cyclic name template ∧ ReachesItself scopes name)) := by
  have depthFirst := resolve_eq_evaluate bound htail h
  have okIff := resolve_ok_iff bound htail h
  refine ⟨depthFirst, okIff, ?_, ?_⟩
  · intro resolved hr
    constructor
    · obtain ⟨meaning, hm, rfl⟩ := map_eq_ok.mp (depthFirst.symm.trans hr)
      rw [String.toList_ofList, (Evaluates.of_ok hm).eq_meanings bound]
    · intro name hname
      have sane := okIff.mp ⟨resolved, hr⟩
      obtain ⟨⟨value, found⟩, _⟩ := sane name (.here hname)
      -- Whatever the text of the name reaches, the template reaches too.
      have inner : ∀ name', Reaches scopes (pieces value.toList) name' → _ :=
        fun name' reached => sane name' (.through hname found reached)
      have well : value.toList = text (pieces value.toList) ++ [] := by
        rw [text_pieces (bound name value found), List.append_nil]
      obtain ⟨meaning, hm⟩ := (resolve_ok_iff bound (.inl rfl) well).mpr inner
      exact ⟨value, meaning, found, hm⟩
  · intro e he
    obtain ⟨name, reached, fault⟩ := evaluate_error (map_eq_error.mp (depthFirst.symm.trans he))
    refine ⟨name, reached, ?_⟩
    obtain unbound | ⟨cyclic, active | itself⟩ := fault
    · exact .inl unbound
    · exact absurd active List.not_mem_nil
    · exact .inr ⟨cyclic, itself⟩

/-- It is enough that all bound texts are well-delimited, whether or not they are hidden by others. -/
lemma wellBound_of_all {scopes : Scopes}
    (h : ∀ scope ∈ scopes, ∀ binding ∈ scope.bindings, WellDelimited binding.2.toList) :
    WellBound scopes := by
  intro name value found
  obtain ⟨scope, hscope, hget⟩ := List.exists_of_findSome?_eq_some found
  obtain ⟨front, back, hbindings, _⟩ := List.lookup_eq_some_iff.mp hget
  have member : (name, value) ∈ scope.bindings := by
    rw [hbindings]
    exact List.mem_append_right front List.mem_cons_self
  exact h scope hscope _ member

/-- Two scopes, in which one name is hidden and one text has adjacent tokens. -/
def twoScopes : Scopes :=
  [.ofList [("a", "<$b$$b$>")], .ofList [("a", "hidden"), ("b", "-")]]

theorem resolve_twoScopes :
    WellBound twoScopes ∧ resolve twoScopes "$a$ costs $5" = .ok "<--> costs $5" := by
  have bound : WellBound twoScopes := by
    apply wellBound_of_all
    have first : (Scope.ofList [("a", "<$b$$b$>")]).bindings = [("a", "<$b$$b$>")] := by cbv
    have second : (Scope.ofList [("a", "hidden"), ("b", "-")]).bindings =
        [("a", "hidden"), ("b", "-")] := by cbv
    simp only [twoScopes, List.forall_mem_cons, first, second, List.not_mem_nil, false_implies,
      implies_true, and_true, wellDelimited_iff]
    exact ⟨by cbv, by cbv, by cbv⟩
  have h : "$a$ costs $5".toList =
      text [.token "a" (by decide) (by decide), .literal " costs ".toList (by decide)] ++ "$5".toList := by
    decide
  exact ⟨bound, (resolve_depthFirst bound (.inr ⟨['5'], by decide, by decide⟩) h).1.trans (by cbv)⟩

example : resolve [.ofList [("a", "$b$"), ("b", "$a$")]] "x $a$" = .error (.cyclic "a" "x $a$") := by
  cbv

end Polyadic.Template
