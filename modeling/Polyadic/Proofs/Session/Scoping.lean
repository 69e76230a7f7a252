import Polyadic.Proofs.Session.Operations
import Polyadic.Proofs.Session.Printing
import Polyadic.Proofs.Session.Run

/-!
# Live scopes

The scopes that are live at a step are those that the program puts around it. Every operation of a session
leaves its layout and its scopes alone (`Fixed.carries`), so a step leaves them as it has found them, whether it
succeeds or fails and whatever it fails with (`Within.runInvariant`). `Visits` says which scopes stand around
the place that a run has come to, and `Visits.scopes` that exactly these have been pushed there. The main
statement is `scopes_restored`: what a template resolves to does not depend on a scope that was left.
-/

namespace Polyadic.Session

open Template (Scope Scopes)

/-- The session has the layout, and the scopes are live. -/
structure Within (options : Options) (scopes : Scopes) (s : Session) : Prop where
  options : s.options = options
  scopes : s.scopes = scopes

/-- The operation changes neither the layout nor the live scopes, whether it succeeds or fails. -/
def Fixed (act : Action α) : Prop :=
  ∀ ⦃options scopes s⦄, Within options scopes s →
    Yields act s (fun _ => Within options scopes) (fun _ => Within options scopes)

/-- The operation of the writer keeps the indentation. -/
def Writer.KeepsIndent (act : Writer.Action α) : Prop :=
  ∀ writer, Yields act writer (fun _ writer' => writer'.indent = writer.indent)
    (fun _ writer' => writer'.indent = writer.indent)

namespace Writer.KeepsIndent

lemma writeLine (text : String) : KeepsIndent (Writer.writeLine text) := by
  rintro ⟨indent, _ | sink, depth, lines⟩
  · exact rfl
  · unfold Yields
    simp only [Writer.writeLine]
    rcases sink.writeAll (linePieces indent depth text) with ⟨_ | _, sink'⟩
    · exact rfl
    · exact rfl

lemma dedent (construct : String) : KeepsIndent (Writer.dedent construct) := by
  rintro ⟨indent, sink, _ | depth, lines⟩
  · exact rfl
  · exact rfl

lemma deepen : KeepsIndent Writer.deepen :=
  fun _ => rfl

lemma attach (sink : Sink) : KeepsIndent (Writer.attach sink) := by
  rintro ⟨indent, _ | sink', depth, lines⟩
  · exact rfl
  · exact rfl

lemma detach : KeepsIndent Writer.detach := by
  rintro ⟨indent, _ | sink, depth, lines⟩
  · exact rfl
  · unfold Yields
    simp only [Writer.detach]
    cases sink.flushFails with
    | true => exact rfl
    | false => exact rfl

end Writer.KeepsIndent

namespace Fixed

variable {act : Action α} {f : α → Action β}

lemma pure (a : α) : Fixed (pure a) :=
  fun _ _ _ h => h

lemma throw (e : Error) : Fixed (throw e : Action α) :=
  fun _ _ _ h => h

lemma bind (first : Fixed act) (second : ∀ a, Fixed (f a)) : Fixed (act >>= f) :=
  fun _ _ _ h => .bind (first h) fun a _ h' => second a h'

lemma ofWriter {act : Writer.Action α} (keeps : Writer.KeepsIndent act) : Fixed (Action.ofWriter act) := by
  rintro _ _ ⟨braces, writer, regions, scopes⟩ ⟨rfl, rfl⟩
  have keeps := keeps writer
  unfold Yields at keeps ⊢
  simp only [Action.ofWriter]
  cases h : act writer with
  | ok a writer' =>
    rw [h] at keeps
    exact ⟨congrArg (Options.mk · braces) keeps, rfl⟩
  | error e writer' =>
    rw [h] at keeps
    exact ⟨congrArg (Options.mk · braces) keeps, rfl⟩

lemma takePending : Fixed Action.takePending := by
  rintro _ _ ⟨braces, writer, _ | ⟨pending, enclosing⟩, scopes⟩ ⟨rfl, rfl⟩
  · exact ⟨rfl, rfl⟩
  · exact ⟨rfl, rfl⟩

lemma setPending (block : Block) : Fixed (Action.setPending block) := by
  rintro _ _ ⟨braces, writer, _ | ⟨pending, enclosing⟩, scopes⟩ ⟨rfl, rfl⟩
  · exact ⟨rfl, rfl⟩
  · exact ⟨rfl, rfl⟩

lemma pushRegion : Fixed Action.pushRegion :=
  fun _ _ _ h => ⟨h.options, h.scopes⟩

lemma resetRegions : Fixed Action.resetRegions :=
  fun _ _ _ h => ⟨h.options, h.scopes⟩

lemma resolve (template : String) : Fixed (Action.resolve template) := by
  rintro _ _ s within
  refine (Yields.resolve fun _ => within).mono ?_ (fun _ _ h => h)
  rintro _ _ rfl
  exact within

lemma abandon (block : Block) : Fixed (Action.abandon block) := by
  rintro _ _ ⟨braces, writer, regions, scopes⟩ ⟨rfl, rfl⟩
  obtain _ | ⟨region, _ | ⟨next, regions⟩⟩ := regions
  · exact ⟨rfl, rfl⟩
  · exact ⟨rfl, rfl⟩
  · exact ⟨rfl, rfl⟩

/-- No operation of a session changes its layout or its scopes. -/
theorem carries : Carries Fixed where
  pure := pure
  throw := throw
  bind := bind
  get_bind _ h := fun _ _ s within => .get_bind (h s within)
  writeLine text := ofWriter (.writeLine text)
  dedent construct := ofWriter (.dedent construct)
  deepen := ofWriter .deepen
  takePending := takePending
  setPending := setPending
  pushRegion := pushRegion
  resolve := resolve
  abandon := abandon

lemma begin (sink : Sink) : Fixed (Action.begin sink) :=
  bind (ofWriter (.attach sink)) fun _ => resetRegions

lemma finish : Fixed Action.finish :=
  bind carries.wrapUp fun _ => ofWriter .detach

lemma yields {options : Options} {scopes : Scopes} {s : Session} (fixed : Fixed act)
    (h : Within options scopes s) :
    Yields act s (fun _ => Within options scopes) (fun _ s' => True ∧ Within options scopes s') :=
  (fixed h).mono (fun _ _ h => h) (fun _ _ h => ⟨trivial, h⟩)

end Fixed

/-- Runs keep the layout, and the scopes but for those around the step. -/
theorem Within.runInvariant (options : Options) :
    RunInvariant (Within options) id (fun scope scopes => scope :: scopes) (fun _ => True) where
  begin sink h := (Fixed.begin sink).yields h
  finish h := Fixed.finish.yields h
  statement template terminator h := Fixed.yields (Fixed.carries.statement template terminator) h
  openBlock header suffix h := Fixed.yields (Fixed.carries.openBlock header suffix) h
  closeBlock h := Fixed.yields Fixed.carries.closeBlock h
  enter header suffix h := Fixed.yields (Fixed.carries.enterBlock header suffix) h
  complete block h := Fixed.yields (Fixed.carries.complete block) h
  abandon block h := (Fixed.abandon block).yields h
  pushScope scope h := ⟨h.options, congrArg (scope :: ·) h.scopes⟩
  popScope _ h := ⟨h.options, congrArg List.tail h.scopes⟩
  write := trivial
  alreadyActive := trivial
  placeholder _ := trivial

lemma Within.self (s : Session) : Within s.options s.scopes s :=
  ⟨rfl, rfl⟩

/-- A step leaves the layout and the live scopes as it has found them. -/
lemma Within.step {options : Options} {scopes : Scopes} {m : Machine}
    (h : Within options scopes m.session) (step : Step) :
    Within options scopes (Machine.outcome step.exec m).2.session :=
  (((Within.runInvariant options).exec step scopes m h).mono (fun _ _ h => h) (fun _ _ h => h.2)).outcome

lemma Within.watch {options : Options} {scopes : Scopes} {m : Machine}
    (h : Within options scopes m.session) (steps : List Step) :
    Within options scopes (m.watch steps).2.session :=
  (Within.runInvariant options).watch steps h

/-- A run of the steps from a machine comes to a state at a place with such scopes of the program around it,
innermost first. -/
inductive Visits : List Step → Machine → Scopes → Machine → Prop where
  | here {steps m} : Visits steps m [] m
  | later {step steps m answer m' around state} :
    step.exec m = .ok answer m' →
    Visits steps m' around state →
    Visits (step :: steps) m around state
  | inBlock {header suffix body steps m block m' around state} :
    Machine.enterBlock header suffix m = .ok block m' →
    Visits body m' around state →
    Visits (.block header suffix body :: steps) m around state
  | inScope {scope body steps m m' around state} :
    Machine.onSession (Action.pushScope scope) m = .ok () m' →
    Visits body m' around state →
    Visits (.scoped scope body :: steps) m (around ++ [scope]) state
  | inAttempt {body steps m around state} :
    Visits body m around state →
    Visits (.attempt body :: steps) m around state
  | inRun {body steps m around state} :
    Visits body m around state →
    Visits (.run body :: steps) m around state

/-- At every place just the scopes around it have been pushed. -/
theorem Visits.scopes {steps : List Step} {m state : Machine} {around : Scopes}
    (h : Visits steps m around state) : state.session.scopes = around ++ m.session.scopes := by
  induction h with
  | here => rfl
  | @later step _ m _ _ _ _ hs _ ih =>
    have kept := ((Within.runInvariant _).exec step _ m (.self _)).of_ok hs
    rw [ih, kept.scopes]
  | @inBlock header suffix _ _ m _ _ _ _ hb _ ih =>
    have kept := ((Within.runInvariant _).enter header suffix (.self m.session)).onSession.of_ok hb
    rw [ih, kept.scopes, id]
  | inScope hs _ ih =>
    cases hs
    rw [ih, List.append_assoc]
    rfl
  | inAttempt _ ih => exact ih
  | inRun _ ih => exact ih

/-- What the step that resolves a template answers depends on the live scopes alone. -/
lemma outcome_resolve (template : String) (m : Machine) :
    (Machine.outcome (Step.exec (.resolve template)) m).1 =
      ((Template.resolve m.session.scopes template).map Answer.text).mapError Error.placeholder := by
  unfold Machine.outcome Step.exec
  cases h : Template.resolve m.session.scopes template with
  | ok text =>
    rw [bind_of_ok (Machine.onSession_of_ok (Action.resolve_of_ok h))]
    rfl
  | error cause =>
    rw [bind_of_error (Machine.onSession_of_error (Action.resolve_of_error h))]
    rfl

/-- Behind a step the live scopes are those before it, however it ends. So wherever two runs come to places
with the same scopes around them, the same scopes are live there, and templates resolve to the same,
whatever other scopes were opened and left before. -/
theorem scopes_restored (m : Machine) :
    (∀ step : Step, (Machine.outcome step.exec m).2.session.scopes = m.session.scopes) ∧
      ∀ {earlier earlier' steps steps' : List Step} {around : Scopes} {state state' : Machine},
        Visits steps (m.watch earlier).2 around state →
        Visits steps' (m.watch earlier').2 around state' →
        state.session.scopes = state'.session.scopes ∧
          ∀ template, (Machine.outcome (Step.exec (.resolve template)) state).1 =
            (Machine.outcome (Step.exec (.resolve template)) state').1 := by
  have self := Within.self m.session
  refine ⟨fun step => (self.step step).scopes, ?_⟩
  intro earlier earlier' steps steps' around state state' visits visits'
  have same : state.session.scopes = state'.session.scopes := by
    rw [visits.scopes, visits'.scopes, (self.watch earlier).scopes, (self.watch earlier').scopes]
  refine ⟨same, fun template => ?_⟩
  rw [outcome_resolve, outcome_resolve, same]

/-- A scope, and in it an attempt at another one that binds the same name and fails. -/
def shadowed (value : String) : Program :=
  [.scoped (.ofList [("k", "1")]) [.attempt [.scoped (.ofList [("k", value)]) [.statement "$k$$missing$" ";"]]]]

/-- Behind the attempt the name means what the outer scope says, whatever the inner one has bound it to. -/
theorem scopes_restored_shadowed :
    let start := ((Machine.ofOptions {}).watch [.begin (.memory {})]).2
    ∃ state state',
      Visits (shadowed "2") start [.ofList [("k", "1")]] state ∧
      Visits (shadowed "3") start [.ofList [("k", "1")]] state' ∧
      (Machine.outcome (Step.exec (.resolve "$k$")) state).1 = .ok (.text "1") ∧
      (Machine.outcome (Step.exec (.resolve "$k$")) state').1 = .ok (.text "1") := by
  intro start
  have caught (value : String) (h : value = "2" ∨ value = "3") :
      ∃ state, Visits (shadowed value) start [.ofList [("k", "1")]] state := by
    refine ⟨_, .inScope rfl (.later (Machine.eq_ok_of_outcome
      (a := .caught (some (.placeholder (.unbound "missing" "$k$$missing$")))) ?_) .here)⟩
    obtain rfl | rfl := h
    · cbv
    · cbv
  obtain ⟨state, visits⟩ := caught "2" (.inl rfl)
  obtain ⟨state', visits'⟩ := caught "3" (.inr rfl)
  have same := ((scopes_restored (.ofOptions {})).2 visits visits').2 "$k$"
  have one : (Machine.outcome (Step.exec (.resolve "$k$")) state).1 = .ok (.text "1") := by
    rw [outcome_resolve, visits.scopes]
    cbv
  exact ⟨state, state', visits, visits', one, same.symm.trans one⟩

end Polyadic.Session
