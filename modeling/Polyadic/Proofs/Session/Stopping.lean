import Polyadic.Proofs.Session.Printing
import Polyadic.Proofs.Session.Run

/-!
# Passes that stop

A pass that emits and catches nothing stops at the first step that fails by itself, for a template or for an
explicit close that meets nothing (`Step.fault?`). `Stops` says at which step a run stops and what comes before
it in the tree of the program: the items in front of it and the blocks around it, each with its header and what
is in front in its body (`Front`).

On the way out of the blocks around the step nothing is written. So the sink is left with the print of what is
in front (`Stopped.exec`, `Stopped.execAll`, by induction on the steps), which is what the steps before have
written and what is owed for the block pending there. The main statement is `pass_stops`.
-/

namespace Polyadic.Session

open Template (Scopes)

/-- What comes before a place in an output: items, and around the place maybe a block with a header and what
comes before the place in its body. -/
inductive Front where
  | beside (items : List Item)
  | inside (items : List Item) (header : String) (body : Front)

namespace Front

/-- The text up to the place. -/
def print (options : Options) (depth : Nat) : Front → String
  | .beside items => Item.printAll options depth items
  | .inside items header body =>
    Item.printAll options depth items ++ (options.opening depth header ++ body.print options (depth + 1))

/-- How many blocks are around the place. -/
def depth : Front → Nat
  | .beside _ => 0
  | .inside _ _ body => body.depth + 1

/-- The same with more items in front. -/
def behind (earlier : List Item) : Front → Front
  | .beside items => .beside (earlier ++ items)
  | .inside items header body => .inside (earlier ++ items) header body

lemma print_behind (options : Options) (depth : Nat) (earlier : List Item) (front : Front) :
    (front.behind earlier).print options depth =
      Item.printAll options depth earlier ++ front.print options depth := by
  cases front with
  | beside items => exact Item.printAll_append options depth earlier items
  | inside items header body =>
    rw [behind, print, print, Item.printAll_append, String.append_assoc]

lemma depth_behind (earlier : List Item) (front : Front) : (front.behind earlier).depth = front.depth := by
  cases front with
  | beside items => rfl
  | inside items header body => rfl

end Front

/-- What a template fails with in the scopes. -/
def fault? (scopes : Scopes) (template : String) : Option Error :=
  match Template.resolve scopes template with
  | .ok _ => none
  | .error cause => some (.placeholder cause)

/-- What a step that emits fails with by itself, whatever is in its body, when the sink refuses nothing. -/
def Step.fault? (s : Session) : Step → Option Error
  | .statement template _ => Session.fault? s.scopes template
  | .openBlock header _ => Session.fault? s.scopes header
  | .emptyBlock header => Session.fault? s.scopes header
  | .block header _ _ => Session.fault? s.scopes header
  | .closeBlock => if s.regions.pending.isSome then none else some (.imbalance .nonePending)
  | .scoped .. | .run _ | .note _ | .begin _ | .finish | .resolve _ | .attempt _ => none

/-- A run of the steps from a machine stops, behind what comes before in the output, at a step that fails by
itself in such a state. -/
inductive Stops : List Step → Machine → Front → Machine → Error → Prop where
  | here {step steps m e} :
    step.fault? m.session = some e →
    Stops (step :: steps) m (.beside []) m e
  | later {step steps m answer m' front state e} :
    step.exec m = .ok answer m' →
    Stops steps m' front state e →
    Stops (step :: steps) m (front.behind (step.items m.session.scopes)) state e
  | inBlock {header suffix body steps m block m' front state e} :
    Machine.enterBlock header suffix m = .ok block m' →
    Stops body m' front state e →
    Stops (.block header suffix body :: steps) m (.inside [] (meaning m.session.scopes header) front) state e
  | inScope {scope body steps m m' front state e} :
    Machine.onSession (Action.pushScope scope) m = .ok () m' →
    Stops body m' front state e →
    Stops (.scoped scope body :: steps) m front state e
  | inRun {body steps m front state e} :
    Stops body m front state e →
    Stops (.run body :: steps) m front state e

/-- A run stops for a template, or for a close with nothing pending. -/
lemma Stops.error {steps : List Step} {m state : Machine} {front : Front} {e : Error}
    (h : Stops steps m front state e) :
    (∃ cause, e = .placeholder cause) ∨
      e = .imbalance .nonePending ∧ state.session.regions.pending = none := by
  induction h with
  | @here step _ m e fault =>
    have unresolved {template : String} (h : fault? m.session.scopes template = some e) :
        ∃ cause, e = .placeholder cause := by
      unfold fault? at h
      split at h
      · cases h
      · rename_i cause _
        cases h
        exact ⟨cause, rfl⟩
    cases step with
    | statement | openBlock | emptyBlock | block => exact .inl (unresolved fault)
    | closeBlock =>
      rw [Step.fault?] at fault
      split at fault
      · cases fault
      · rename_i none
        cases fault
        exact .inr ⟨rfl, Option.not_isSome_iff_eq_none.mp none⟩
    | «scoped» | run | note | begin | finish | resolve | attempt => cases fault
  | later _ _ ih => exact ih
  | inBlock _ _ ih => exact ih
  | inScope _ _ ih => exact ih
  | inRun _ ih => exact ih

/-- The operation first closes what is pending and then resolves the template. -/
def Writes (template : String) (act : Action α) : Prop :=
  ∃ behind : String → Action α, act = do
    Action.closeIfPending
    let text ← Action.resolve template
    behind text

namespace Writes

lemma bind {template : String} {act : Action α} (h : Writes template act) (next : α → Action β) :
    Writes template (act >>= next) := by
  obtain ⟨behind, rfl⟩ := h
  exact ⟨fun text => behind text >>= next, by simp only [bind_assoc]⟩

lemma statement (template terminator : String) : Writes template (Action.statement template terminator) :=
  ⟨_, rfl⟩

lemma openBlock (header suffix : String) : Writes header (Action.openBlock header suffix) :=
  have opening : Writes header (Action.writeOpening header) := ⟨_, rfl⟩
  opening.bind _

/-- When the template has no meaning, the operation closes what is pending and does nothing more. -/
lemma unresolved {template : String} {act : Action α} (writes : Writes template act) {place : Place}
    {depth : Nat} {p : Option Block} {written : String} {s : Session}
    (h : Prints place (depth + p.toList.length) p written s)
    (meaningless : ¬ Resolves (place.scopes, template)) :
    ∃ cause s', Template.resolve s.scopes template = .error cause ∧
      act s = .error (.placeholder cause) s' ∧
      Prints place depth none (written ++ place.options.owed depth p) s' := by
  obtain ⟨behind, rfl⟩ := writes
  have closing := h.closeIfPending_yields
  cases closed : Action.closeIfPending s with
  | error e s' => exact (closing.of_error closed).elim
  | ok _ s' =>
    have h' := closing.of_ok closed
    cases resolved : Template.resolve place.scopes template with
    | ok text => exact absurd ⟨text, resolved⟩ meaningless
    | error cause =>
      refine ⟨cause, s', h.scopes ▸ resolved, ?_, h'⟩
      rw [bind_of_ok closed]
      exact bind_of_error (Action.resolve_of_error (h'.scopes ▸ resolved))

end Writes

/-- A run of the steps has stopped, and left the session at the place with the print of all that comes before
the step in the sink; where it stopped, so much was printed, what was owed for a pending block included. -/
def Stopped (place : Place) (depth : Nat) (text : String) (steps : List Step) (m : Machine) (e : Error)
    (s : Session) : Prop :=
  ∃ front state, Stops steps m front state e ∧
    (∃ inner pending, inner.options = place.options ∧ inner.sink = place.sink ∧
      Printed inner (depth + front.depth) pending (text ++ front.print place.options depth) state.session) ∧
    ∃ left, Prints place left none (text ++ front.print place.options depth) s

lemma Printed.scopes {place : Place} {depth : Nat} {pending : Bool} {text : String} {s : Session}
    (h : Printed place depth pending text s) : s.scopes = place.scopes := by
  obtain ⟨p, written, h, _⟩ := h
  exact h.scopes

/-- Behind the begin of a pass nothing is printed yet. -/
lemma Printed.of_begin {target : Target} {m begun : Machine}
    (unlimited : (Machine.sinkOf target).capacity = none) (begins : Machine.begin target m = .ok () begun) :
    Printed (m.topLevel unlimited) 0 false "" begun.session := by
  obtain ⟨_, session⟩ := Machine.session_begin begins
  rw [session]
  have nothing : (m.topLevel unlimited).holding "" = Machine.sinkOf target :=
    congrArg (fun content => { Machine.sinkOf target with content }) ByteArray.append_empty
  exact .of_prints ⟨rfl, rfl, congrArg some nothing.symm, rfl, rfl, rfl⟩

namespace Stopped

variable {place : Place} {depth : Nat} {text : String} {pending : Bool} {step : Step} {steps : List Step}
  {m m' : Machine} {e : Error} {s : Session}

lemma here (h : Printed place depth pending text m.session) (fault : step.fault? m.session = some e)
    {left : Nat} (stopped : Prints place left none text s) :
    Stopped place depth text (step :: steps) m e s := by
  have nothing : text ++ (Front.beside []).print place.options depth = text := String.append_empty
  refine ⟨.beside [], m, .here fault, ⟨place, pending, rfl, rfl, ?_⟩, left, ?_⟩
  · rwa [nothing]
  · rwa [nothing]

lemma later {answer : Answer} (done : step.exec m = .ok answer m') (scopes : m.session.scopes = place.scopes)
    (h : Stopped place depth (text ++ Item.printAll place.options depth (step.items place.scopes)) steps m' e s) :
    Stopped place depth text (step :: steps) m e s := by
  obtain ⟨front, state, stops, printed, left⟩ := h
  refine ⟨_, state, .later done stops, ?_⟩
  rw [Front.print_behind, Front.depth_behind, scopes, ← String.append_assoc]
  exact ⟨printed, left⟩

/-- A block is left without its closing line when its body has stopped. -/
lemma abandon_yields {fail : Error → Session → Prop} {header suffix : String} {body : List Step} {block : Block}
    (entered : Machine.enterBlock header suffix m = .ok block m') (scopes : m.session.scopes = place.scopes)
    (h : Stopped place.inner (depth + 1)
      (text ++ place.options.opening depth (meaning place.scopes header)) body m' e s) :
    Yields (Action.abandon block) s
      (fun _ => Stopped place depth text (.block header suffix body :: steps) m e) fail := by
  obtain ⟨front, state, stops, ⟨inner, pending, options, sink, printed⟩, depth', stopped⟩ := h
  refine (stopped.abandon_yields block).mono (fun _ s' h' => ?_) (fun _ _ h => h)
  refine ⟨_, state, .inBlock entered stops, ⟨inner, pending, options, sink, ?_⟩, depth', ?_⟩
  · rw [Front.print, Front.depth, Item.printAll, String.empty_append, scopes, ← String.append_assoc,
      Nat.add_comm front.depth, ← Nat.add_assoc]
    exact printed
  · rw [Front.print, Item.printAll, String.empty_append, scopes, ← String.append_assoc]
    exact h'

/-- The body of a block stops, or is completed. -/
lemma inside {header suffix : String} {body : List Step} {block : Block}
    (entered : Machine.enterBlock header suffix m = .ok block m') (scopes : m.session.scopes = place.scopes)
    (y : Yields (Step.execAll body) m'
      (fun _ m'' => ∃ pending text, Printed place.inner (depth + 1) pending text m''.session)
      (fun e m'' => Stopped place.inner (depth + 1)
        (text ++ place.options.opening depth (meaning place.scopes header)) body m' e m''.session)) :
    Yields (Machine.inside block (Step.execAll body)) m' (fun _ _ => True)
      (fun e m'' => Stopped place depth text (.block header suffix body :: steps) m e m''.session) := by
  refine .around y ?_ fun e m'' stopped => (stopped.abandon_yields entered scopes).onSession
  rintro _ m'' ⟨pending, text, p, written, h, _⟩
  exact (Prints.complete_yields block h).onSession.mono (fun _ _ _ => trivial) (fun _ _ h => h.elim)

lemma inScope {scope : Template.Scope} {body : List Step}
    (pushed : Machine.onSession (Action.pushScope scope) m = .ok () m')
    (h : Stopped (place.within scope) depth text body m' e s) :
    Stopped place depth text (.scoped scope body :: steps) m e { s with scopes := s.scopes.tail } := by
  obtain ⟨front, state, stops, printed, left, h⟩ := h
  refine ⟨front, state, .inScope pushed stops, printed, left, ?_⟩
  exact ⟨h.braces, h.indent, h.sink, h.depth, h.regions, congrArg List.tail h.scopes⟩

lemma inRun {body : List Step} (h : Stopped place depth text body m e s) :
    Stopped place depth text (.run body :: steps) m e s := by
  obtain ⟨front, state, stops, rest⟩ := h
  exact ⟨front, state, .inRun stops, rest⟩

/-- An operation that writes a template either does so or stops at its step. -/
lemma of_unresolved {p : Option Block} {written template : String} {act : Action α} {post : α → Session → Prop}
    (step : Step) (steps : List Step) (writes : Writes template act)
    (h : Prints place (depth + p.toList.length) p written m.session)
    (fault : step.fault? m.session = fault? m.session.scopes template)
    (y : Yields act m.session post fun _ _ => ¬ Resolves (place.scopes, template)) :
    Yields act m.session post
      (Stopped place depth (written ++ place.options.owed depth p) (step :: steps) m) := by
  refine .intro (fun a s' done => y.of_ok done) fun e s' failed => ?_
  obtain ⟨cause, s₁, unresolved, run, h₁⟩ := writes.unresolved h (y.of_error failed)
  cases run.symm.trans failed
  have faulty : step.fault? m.session = some (.placeholder cause) := by
    rw [fault, fault?, unresolved]
  exact .here ⟨p, written, h, rfl, rfl⟩ faulty h₁

open Machine

mutual

/-- A step that emits fails only by stopping. -/
theorem exec (step : Step) (steps : List Step) (emits : step.Emits) (place : Place) (depth : Nat)
    (pending : Bool) (text : String) (m : Machine) (h : Printed place depth pending text m.session) :
    Yields step.exec m (fun _ _ => True)
      (fun e m' => Stopped place depth text (step :: steps) m e m'.session) := by
  cases step with
  | begin target => exact False.elim emits
  | finish => exact False.elim emits
  | statement template terminator =>
    obtain ⟨p, written, h, _, rfl⟩ := h
    have stops := of_unresolved (.statement template terminator) steps (.statement template terminator) h rfl
      (h.statement_yields template terminator)
    exact .bind stops.onSession fun _ _ _ => trivial
  | openBlock header suffix =>
    obtain ⟨p, written, h, _, rfl⟩ := h
    have stops := of_unresolved (.openBlock header suffix) steps (.openBlock header suffix) h rfl
      (h.openBlock_yields header suffix)
    exact .bind stops.onSession fun _ _ _ => trivial
  | closeBlock =>
    obtain ⟨p, written, h, rfl, rfl⟩ := h
    have stops : Yields Action.closeBlock m.session (fun _ _ => True)
        (Stopped place depth (written ++ place.options.owed depth p) (.closeBlock :: steps) m) := by
      refine .bind h.takePending_yields ?_
      rintro taken s ⟨rfl, h'⟩
      cases taken with
      | none =>
        have fault : Step.closeBlock.fault? m.session = some (.imbalance .nonePending) := by
          rw [Step.fault?, h.regions]
          rfl
        have nothing : written ++ place.options.owed depth none = written := String.append_empty
        rw [nothing]
        exact .throw (.here (.of_prints h) fault h')
      | some block =>
        exact (Prints.writeClosing_yields block h').mono (fun _ _ _ => trivial) (fun _ _ h => h.elim)
    exact .bind stops.onSession fun _ _ _ => trivial
  | emptyBlock header =>
    -- Only the opening can stop the run: the body does nothing, and closing lines are always taken.
    obtain ⟨p, written, h, _, rfl⟩ := h
    have entering := of_unresolved (.emptyBlock header) steps ((Writes.openBlock header "").bind _) h rfl
      (h.enter_yields header "")
    refine .bind entering.onSession fun block m₁ ⟨_, _, h₁⟩ => ?_
    have body : Yields (pure .done : Machine.Action Answer) m₁
        (fun _ m' => Prints place.inner (depth + 1) none _ m'.session) (fun _ _ => False) := .pure h₁
    refine .around body (fun _ m₂ h₂ => ?_) (fun _ _ h => h.elim)
    exact (Prints.complete_yields (p := none) block h₂).onSession.mono (fun _ _ _ => trivial) (fun _ _ h => h.elim)
  | resolve template => exact False.elim emits
  | block header suffix body =>
    have scopes := h.scopes
    obtain ⟨p, written, h, _, rfl⟩ := h
    have entering := of_unresolved (.block header suffix body) steps ((Writes.openBlock header suffix).bind _) h
      rfl (h.enter_yields header suffix)
    refine .bind entering.onSession.with_ok ?_
    intro block m₁ ⟨entered, _, _, h₁⟩
    have printed := Printed.execAll body emits place.inner (depth + 1) false _ m₁ (.of_prints h₁)
    have stops := execAll body emits place.inner (depth + 1) false _ m₁ (.of_prints h₁)
    refine .bind (inside entered scopes ((printed.and stops).mono ?_ ?_)) fun _ _ _ => trivial
    · exact fun _ _ h => ⟨_, _, h.1.2⟩
    · exact fun _ _ h => h.2
  | «scoped» scope body =>
    have stops := execAll body emits (place.within scope) depth pending text (m.rescoped _) (h.pushScope scope)
    have pushed : Machine.onSession (Action.pushScope scope) m = .ok () (m.rescoped (scope :: m.session.scopes)) :=
      onSession_of_ok rfl
    have left : Yields (Machine.inScope scope (Step.execAll body)) m (fun _ _ => True)
        (fun e m' => Stopped place depth text (.scoped scope body :: steps) m e m'.session) :=
      .inScope stops (fun _ _ _ => trivial) (fun _ _ stopped => stopped.inScope pushed)
    exact .bind left fun _ _ _ => trivial
  | attempt body => exact False.elim emits
  | run body =>
    have stops := execAll body emits place depth pending text m h
    exact .bind (stops.mono (fun _ _ h => h) fun _ _ stopped => stopped.inRun) fun _ _ _ => trivial
  | note text => trivial

theorem execAll (steps : List Step) (emits : Step.EmitsAll steps) (place : Place) (depth : Nat)
    (pending : Bool) (text : String) (m : Machine) (h : Printed place depth pending text m.session) :
    Yields (Step.execAll steps) m (fun _ _ => True)
      (fun e m' => Stopped place depth text steps m e m'.session) := by
  cases steps with
  | nil => trivial
  | cons step steps =>
    -- Where the step succeeds, what follows it starts behind the items of the step.
    have printed := Printed.exec step emits.1 place depth pending text m h
    have stops := exec step steps emits.1 place depth pending text m h
    refine .bind ((stops.and printed).with_ok.mono (fun _ _ h => h) (fun _ _ h => h.1)) ?_
    intro answer m' ⟨done, _, _, h'⟩
    refine (execAll steps emits.2 place depth _ _ m' h').mono (fun _ _ h => h) ?_
    exact fun e m'' stopped => stopped.later done h.scopes

end

end Stopped

/-- When the steps of a pass emit and catch nothing and the sink takes every byte, the first failure is that of
one step, for a template or for an explicit close with nothing pending. All that the sink holds then is what it
held when the run came to that step, and what was owed for the block pending there: the print of what comes
before the step in the program, the openings of the blocks around it included and their closing lines not. No
block is left pending, and the pass can be ended, which gives just this back. -/
theorem pass_stops {target : Target} {m begun m' : Machine} {program : Program} {e : Error}
    (begins : Machine.begin target m = .ok () begun) (unlimited : (Machine.sinkOf target).capacity = none)
    (emits : Step.EmitsAll program) (failed : Step.execAll program begun = .error e m') :
    ∃ front state, Stops program begun front state e ∧
      ((∃ cause, e = .placeholder cause) ∨
        e = .imbalance .nonePending ∧ state.session.regions.pending = none) ∧
      (∃ written, state.session.writer.sink = some ((m.topLevel unlimited).holding written) ∧
        written ++ m.session.options.owed front.depth state.session.regions.pending =
          front.print m.session.options 0) ∧
      m'.session.writer.sink = some ((m.topLevel unlimited).holding (front.print m.session.options 0)) ∧
      m'.session.regions = .top ∧
      ((Machine.sinkOf target).flushFails = false →
        ∃ ended, Machine.finish m' =
          .ok ((m.topLevel unlimited).holding (front.print m.session.options 0)) ended) := by
  have printed := Printed.of_begin unlimited begins
  have stopped := Stopped.execAll program emits (m.topLevel unlimited) 0 false "" begun printed
  obtain ⟨front, state, stops, ⟨inner, _, options, sink, p, written, h, _, text⟩, left, h'⟩ :=
    stopped.of_error failed
  rw [String.empty_append] at text h'
  rw [Nat.zero_add, options] at text
  refine ⟨front, state, stops, stops.error, ⟨written, ?_, ?_⟩, h'.sink, h'.regions, fun flushes => ?_⟩
  · rw [h.sink, Place.holding, sink, Place.holding]
  · rw [h.regions]
    exact text
  · have ends := Prints.finish_yields (p := none) h' rfl flushes
    cases ended : Machine.finish m' with
    | ok out ended' =>
      obtain ⟨rfl, _⟩ := ends.of_ok ended
      rw [Options.owed, Option.elim_none, String.append_empty]
      exact ⟨ended', rfl⟩
    | error e _ => exact (ends.of_error ended).elim

/-- A placeholder without a meaning within two blocks and a scope, where a block is pending. -/
def unboundInside : Program := [
  .openBlock "a" "",
  .block "b" "" [.openBlock "c" ";", .scoped (.ofList []) [.statement "$missing$" ";"]]]

/-- Both siblings are closed, the block around the statement is not. -/
theorem pass_stops_unboundInside :
    let begun := (Machine.outcome (Machine.begin (.memory {})) (.ofOptions {})).2
    let stopped := Machine.outcome (Step.execAll unboundInside) begun
    let e : Error := .placeholder (.unbound "missing" "$missing$")
    Step.EmitsAll unboundInside ∧ stopped.1 = .error e ∧
      (∃ front state, Stops unboundInside begun front state e ∧
        front.print {} 0 = "a \x7b\n\x7d\nb \x7b\n\tc \x7b\n\t\x7d;\n") ∧
      ∃ out ended, Machine.finish stopped.2 = .ok out ended ∧
        out.content = "a \x7b\n\x7d\nb \x7b\n\tc \x7b\n\t\x7d;\n".toUTF8 := by
  have emits : Step.EmitsAll unboundInside := by simp [unboundInside, Step.EmitsAll, Step.Emits]
  have failed : (Machine.outcome (Step.execAll unboundInside)
      (Machine.outcome (Machine.begin (.memory {})) (.ofOptions {})).2).1 =
        .error (.placeholder (.unbound "missing" "$missing$")) := by cbv
  have sink : (Machine.outcome (Step.execAll unboundInside)
      (Machine.outcome (Machine.begin (.memory {})) (.ofOptions {})).2).2.session.writer.sink =
        some { content := "a \x7b\n\x7d\nb \x7b\n\tc \x7b\n\t\x7d;\n".toUTF8 } := by cbv
  intro begun stopped e
  have begins : Machine.begin (.memory {}) (.ofOptions {}) = .ok () begun := rfl
  obtain ⟨front, state, stops, _, _, held, _, ends⟩ :=
    pass_stops begins rfl emits (Machine.eq_error_of_outcome failed)
  have content := congrArg (·.map Sink.content) (held.symm.trans sink)
  have print : front.print {} 0 = "a \x7b\n\x7d\nb \x7b\n\tc \x7b\n\t\x7d;\n" := by
    rw [← String.toByteArray_inj]
    exact (ByteArray.empty_append).symm.trans (Option.some.inj content)
  obtain ⟨ended, finished⟩ := ends rfl
  refine ⟨emits, failed, ⟨front, state, stops, print⟩, _, ended, finished, ?_⟩
  exact Option.some.inj content

end Polyadic.Session
