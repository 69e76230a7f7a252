import Polyadic.Proofs.Session.Run
import Polyadic.Proofs.Session.Tidy
import Polyadic.Proofs.Text.LineFeeds

/-!
# Counting lines

A writer counts a line once its line feed is taken, and the line feed is a piece of its own, so the count is
the number of line feeds in the sink as long as no text that is written brings one along (`Tallies`).
`Step.Unbroken` says so of a step: within its scopes, no template in it becomes a text with a line feed, and
no terminator or suffix has one. Such steps keep the tally on every sink, whether they succeed or fail
(`Tallies.exec`, `Tallies.execAll`), and what a pass gives back has as many line feeds as lines were counted
(`Tallies.finish_yields`). The main statement is `lines_eq_lineFeeds`, for every state that a run passes through.
-/

namespace Polyadic.Session

open Template (Scopes IsInert)
open Text (lineFeeds)

/-- A text without a line feed. -/
def IsUnbroken (text : String) : Prop :=
  '\n' ∉ text.toList

lemma IsUnbroken.append {text text' : String} (h : IsUnbroken text) (h' : IsUnbroken text') :
    IsUnbroken (text ++ text') := by
  unfold IsUnbroken
  rw [String.toList_append, List.mem_append, not_or]
  exact ⟨h, h'⟩

lemma isUnbroken_brace : IsUnbroken "\x7b" ∧ IsUnbroken "\x7d" ∧ IsUnbroken " \x7b" := by
  unfold IsUnbroken
  decide

lemma isUnbroken_of_isInert {text : String} (h : IsInert text) : IsUnbroken text :=
  fun feed => (Template.ne_of_isInert (h _ feed)).2.2.2 rfl

/-- What the template becomes in the scopes has no line feed. -/
def StaysUnbroken (scopes : Scopes) (template : String) : Prop :=
  ∀ text, Template.resolve scopes template = .ok text → IsUnbroken text

mutual

/-- Within the scopes, the step writes no text with a line feed and starts on no sink that has one. -/
def Step.Unbroken (scopes : Scopes) : Step → Prop
  | .begin target => lineFeeds (Machine.sinkOf target).content = 0
  | .statement template terminator => StaysUnbroken scopes template ∧ IsUnbroken terminator
  | .openBlock header suffix => StaysUnbroken scopes header ∧ IsUnbroken suffix
  | .emptyBlock header => StaysUnbroken scopes header
  | .block header suffix body =>
    StaysUnbroken scopes header ∧ IsUnbroken suffix ∧ Step.UnbrokenAll scopes body
  | .scoped scope body => Step.UnbrokenAll (scope :: scopes) body
  | .attempt body => Step.UnbrokenAll scopes body
  | .run body => Step.UnbrokenAll scopes body
  | .finish | .closeBlock | .resolve _ | .note _ => True

def Step.UnbrokenAll (scopes : Scopes) : List Step → Prop
  | [] => True
  | step :: steps => step.Unbroken scopes ∧ Step.UnbrokenAll scopes steps

end

/-! ## Sinks -/

namespace Sink

variable {sink sink' : Sink} {text : String} {texts : List String} {taken : Bool}

lemma IsUnbroken.lineFeeds (h : IsUnbroken text) : lineFeeds text.toUTF8 = 0 := by
  rw [Text.lineFeeds_toUTF8]
  exact List.count_eq_zero.mpr h

lemma lineFeeds_write (unbroken : IsUnbroken text) (h : sink.write text = (taken, sink')) :
    lineFeeds sink'.content = lineFeeds sink.content := by
  obtain ⟨content, _ | capacity, flushFails⟩ := sink
  · cases h
    show lineFeeds (content ++ text.toUTF8) = _
    rw [Text.lineFeeds_append, IsUnbroken.lineFeeds unbroken, Nat.add_zero]
  · cases h
    show lineFeeds (content ++ text.toUTF8.extract 0 _) = _
    rw [Text.lineFeeds_append, Text.lineFeeds_extract (IsUnbroken.lineFeeds unbroken), Nat.add_zero]

lemma lineFeeds_writeAll (unbroken : ∀ text ∈ texts, IsUnbroken text)
    (h : sink.writeAll texts = (taken, sink')) : lineFeeds sink'.content = lineFeeds sink.content := by
  induction texts generalizing sink with
  | nil =>
    cases h
    rfl
  | cons text texts ih =>
    obtain ⟨own, others⟩ := List.forall_mem_cons.mp unbroken
    rw [writeAll] at h
    split at h
    · rename_i next first
      rw [ih others h, lineFeeds_write own first]
    · rename_i next first
      cases h
      exact lineFeeds_write own first

/-- A line feed is taken whole or not at all. -/
lemma lineFeeds_write_feed (h : sink.write "\n" = (taken, sink')) :
    lineFeeds sink'.content = lineFeeds sink.content + taken.toNat := by
  have one : lineFeeds "\n".toUTF8 = 1 := by rw [Text.lineFeeds_toUTF8]; rfl
  obtain ⟨content, _ | capacity, flushFails⟩ := sink
  · cases h
    show lineFeeds (content ++ "\n".toUTF8) = _
    rw [Text.lineFeeds_append, one]
    rfl
  · have size : "\n".toUTF8.size = 1 := by decide
    obtain ⟨rfl, rfl⟩ := Prod.mk.inj h
    show lineFeeds (content ++ "\n".toUTF8.extract 0 (capacity - content.size)) = _
    rw [Text.lineFeeds_append]
    by_cases room : "\n".toUTF8.size ≤ capacity - content.size
    · rw [extract_whole room, one, decide_eq_true room]
      rfl
    · rw [decide_eq_false room]
      have full : capacity - content.size = 0 := by omega
      rw [full]
      rfl

lemma writeAll_append (sink : Sink) (texts texts' : List String) :
    sink.writeAll (texts ++ texts') =
      match sink.writeAll texts with
      | (true, sink) => sink.writeAll texts'
      | (false, sink) => (false, sink) := by
  induction texts generalizing sink with
  | nil => rfl
  | cons text texts ih =>
    rw [List.cons_append, writeAll, writeAll]
    cases sink.write text with
    | mk taken next =>
      cases taken with
      | true => exact ih next
      | false => rfl

/-- A line that is taken brings one line feed, and one that is refused none. -/
lemma lineFeeds_line {indent : Indent} {depth : Nat} (unbroken : IsUnbroken text)
    (h : sink.writeAll (Writer.linePieces indent depth text) = (taken, sink')) :
    lineFeeds sink'.content = lineFeeds sink.content + taken.toNat := by
  have unit : IsUnbroken indent.unit := by
    unfold Indent.unit IsUnbroken
    split <;> decide
  have blank : ∀ piece ∈ List.replicate depth indent.unit ++ [text], IsUnbroken piece := by
    intro piece hpiece
    obtain hunit | htext := List.mem_append.mp hpiece
    · rwa [List.eq_of_mem_replicate hunit]
    · rwa [List.mem_singleton.mp htext]
  have cut : Writer.linePieces indent depth text = (List.replicate depth indent.unit ++ [text]) ++ ["\n"] := by
    rw [Writer.linePieces, List.append_assoc]
    rfl
  rw [cut, writeAll_append] at h
  split at h
  · rename_i next front
    rw [← lineFeeds_writeAll blank front]
    rw [writeAll] at h
    split at h
    · rename_i last behind
      cases h
      exact lineFeeds_write_feed behind
    · rename_i last behind
      cases h
      exact lineFeeds_write_feed behind
  · rename_i next front
    cases h
    rw [lineFeeds_writeAll blank front]
    rfl

end Sink

/-! ## Operations of the session -/

/-- The count of lines is right, the scopes are the given ones, and no pending block has a suffix with a line
feed. -/
structure Tallies (scopes : Scopes) (s : Session) : Prop where
  scopes : s.scopes = scopes
  lines : ∀ sink, s.writer.sink = some sink → lineFeeds sink.content = s.writer.lines
  pending : ∀ block : Block, some block ∈ s.regions → IsUnbroken block.suffix

namespace Tallies

variable {scopes : Scopes} {s : Session}

/-- What an operation yields that keeps the tally in any case. -/
abbrev Keeps (scopes : Scopes) (act : Action α) (s : Session) : Prop :=
  Yields act s (fun _ => Tallies scopes) (fun _ => Tallies scopes)

lemma writeLine_yields (h : Tallies scopes s) {text : String} (unbroken : IsUnbroken text) :
    Keeps scopes (Action.ofWriter (Writer.writeLine text)) s := by
  obtain ⟨braces, ⟨indent, _ | sink, depth, lines⟩, regions, _⟩ := s
  · exact h
  · obtain ⟨rfl, counted, pending⟩ := h
    unfold Keeps Yields
    simp only [Action.ofWriter, Writer.writeLine]
    rcases hw : sink.writeAll (Writer.linePieces indent depth text) with ⟨taken, sink'⟩
    have feeds := Sink.lineFeeds_line unbroken hw
    rw [counted sink rfl] at feeds
    cases taken with
    | true => exact ⟨rfl, fun _ same => Option.some.inj same ▸ feeds, pending⟩
    | false => exact ⟨rfl, fun _ same => Option.some.inj same ▸ feeds, pending⟩

lemma writeLines_yields (h : Tallies scopes s) {texts : List String}
    (unbroken : ∀ text ∈ texts, IsUnbroken text) : Keeps scopes (Action.writeLines texts) s := by
  induction texts generalizing s with
  | nil => exact h
  | cons text texts ih =>
    obtain ⟨own, others⟩ := List.forall_mem_cons.mp unbroken
    exact .bind (h.writeLine_yields own) fun _ s' h' => ih h' others

lemma takePending_yields (h : Tallies scopes s) :
    Yields Action.takePending s
      (fun taken s' => (∀ block, taken = some block → IsUnbroken block.suffix) ∧ Tallies scopes s')
      (fun _ => Tallies scopes) := by
  obtain ⟨braces, writer, regions, _⟩ := s
  cases regions with
  | nil => exact h
  | cons region regions =>
    refine ⟨fun block same => h.pending block (same ▸ List.mem_cons_self), h.scopes, h.lines, ?_⟩
    rintro block (_ | ⟨_, mem⟩)
    exact h.pending block (List.mem_cons_of_mem _ mem)

lemma writeClosing_yields (h : Tallies scopes s) {block : Block} (unbroken : IsUnbroken block.suffix) :
    Keeps scopes (Action.writeClosing block) s := by
  have dedent : Keeps scopes (Action.ofWriter (Writer.dedent s!"block '{block.header}'")) s := by
    obtain ⟨braces, ⟨indent, sink, _ | depth, lines⟩, regions, _⟩ := s
    · exact h
    · exact ⟨h.scopes, h.lines, h.pending⟩
  exact .bind dedent fun _ s' h' => h'.writeLine_yields (isUnbroken_brace.2.1.append unbroken)

lemma closeIfPending_yields (h : Tallies scopes s) : Keeps scopes Action.closeIfPending s := by
  refine .bind h.takePending_yields fun taken s' ⟨unbroken, h'⟩ => ?_
  cases taken with
  | none => exact h'
  | some block => exact h'.writeClosing_yields (unbroken block rfl)

lemma resolve_yields (h : Tallies scopes s) (template : String) :
    Yields (Action.resolve template) s
      (fun text s' => Template.resolve scopes template = .ok text ∧ Tallies scopes s')
      (fun _ => Tallies scopes) := by
  unfold Yields Action.resolve
  rw [h.scopes]
  cases hr : Template.resolve scopes template with
  | ok text => exact ⟨rfl, h⟩
  | error cause => exact h

lemma statement_yields (h : Tallies scopes s) {template terminator : String}
    (stays : StaysUnbroken scopes template) (unbroken : IsUnbroken terminator) :
    Keeps scopes (Action.statement template terminator) s := by
  refine .bind h.closeIfPending_yields fun _ s₁ h₁ => ?_
  refine .bind (h₁.resolve_yields template) fun text s₂ ⟨resolved, h₂⟩ => ?_
  exact h₂.writeLine_yields ((stays text resolved).append unbroken)

lemma isUnbroken_openingLines (braces : BraceStyle) {header : String} (unbroken : IsUnbroken header) :
    ∀ line ∈ Action.openingLines braces header, IsUnbroken line := by
  obtain ⟨brace, _, behind⟩ := isUnbroken_brace
  cases braces with
  | sameLine =>
    refine List.forall_mem_singleton.mpr ?_
    split
    · exact brace
    · exact unbroken.append behind
  | nextLine => exact List.forall_mem_cons.mpr ⟨unbroken, List.forall_mem_singleton.mpr brace⟩

lemma openBlock_yields (h : Tallies scopes s) {header suffix : String}
    (stays : StaysUnbroken scopes header) (unbroken : IsUnbroken suffix) :
    Keeps scopes (Action.openBlock header suffix) s := by
  have opening : Keeps scopes (Action.writeOpening header) s := by
    refine .bind h.closeIfPending_yields fun _ s₁ h₁ => ?_
    refine .bind (h₁.resolve_yields header) fun text s₂ ⟨resolved, h₂⟩ => ?_
    refine .get_bind ?_
    refine .bind (h₂.writeLines_yields (isUnbroken_openingLines _ (stays text resolved))) fun _ s₃ h₃ => ?_
    exact ⟨h₃.scopes, h₃.lines, h₃.pending⟩
  refine .bind opening fun header s' h' => ?_
  obtain ⟨braces, writer, regions, _⟩ := s'
  cases regions with
  | nil => exact h'
  | cons region regions =>
    refine ⟨h'.scopes, h'.lines, ?_⟩
    rintro block (_ | ⟨_, mem⟩)
    · exact unbroken
    · exact h'.pending block (List.mem_cons_of_mem _ mem)

lemma closeBlock_yields (h : Tallies scopes s) : Keeps scopes Action.closeBlock s :=
  h.closeIfPending_yields.closeBlock (fun _ _ h' => h') fun _ _ h' => h'

lemma enter_yields (h : Tallies scopes s) {header suffix : String}
    (stays : StaysUnbroken scopes header) (unbroken : IsUnbroken suffix) :
    Yields (do Action.openBlock header suffix; Action.enter) s
      (fun block s' => IsUnbroken block.suffix ∧ Tallies scopes s') (fun _ => Tallies scopes) := by
  refine .bind (h.openBlock_yields stays unbroken) fun _ s₁ h₁ => ?_
  refine .bind h₁.takePending_yields fun taken s₂ ⟨unbroken', h₂⟩ => ?_
  cases taken with
  | none => exact h₂
  | some block =>
    refine ⟨unbroken' block rfl, h₂.scopes, h₂.lines, ?_⟩
    rintro block' (_ | ⟨_, mem⟩)
    exact h₂.pending block' mem

lemma abandon_yields (h : Tallies scopes s) (block : Block) : Keeps scopes (Action.abandon block) s := by
  unfold Keeps Yields Action.abandon
  obtain ⟨braces, writer, regions, _⟩ := s
  obtain _ | ⟨region, _ | ⟨next, regions⟩⟩ := regions
  · exact h
  · exact h
  · exact ⟨h.scopes, h.lines, fun block mem => h.pending block (List.mem_cons_of_mem _ mem)⟩

lemma complete_yields (h : Tallies scopes s) {block : Block} (unbroken : IsUnbroken block.suffix) :
    Keeps scopes (Action.complete block) s := by
  refine .bind h.closeIfPending_yields fun _ s₁ h₁ => ?_
  exact .bind (h₁.abandon_yields block) fun _ s₂ h₂ => h₂.writeClosing_yields unbroken

lemma begin_yields (h : Tallies scopes s) {sink : Sink} (fresh : lineFeeds sink.content = 0) :
    Keeps scopes (Action.begin sink) s := by
  obtain ⟨braces, ⟨indent, _ | sink', depth, lines⟩, regions, _⟩ := s
  · refine ⟨h.scopes, fun _ same => Option.some.inj same ▸ fresh, ?_⟩
    rintro block (_ | ⟨_, ⟨⟩⟩)
  · exact h

/-- What a pass gives back has as many line feeds as lines were counted. -/
lemma finish_yields (h : Tallies scopes s) :
    Yields Action.finish s
      (fun out s' => lineFeeds out.content = s'.writer.lines ∧ Tallies scopes s')
      (fun _ => Tallies scopes) := by
  have wrapped : Keeps scopes Action.wrapUp s :=
    .wrapUp (fun _ => h) (fun _ _ => h) fun _ _ => h.closeIfPending_yields
  refine .bind wrapped fun _ s' h' => ?_
  have detached : Tallies scopes { s' with writer := { s'.writer with sink := none } } := by
    refine ⟨h'.scopes, ?_, h'.pending⟩
    rintro sink ⟨⟩
  exact .detach (fun _ => h') (fun sink attached _ => ⟨h'.lines sink attached, detached⟩) fun _ _ _ => detached

/-! ## Steps -/

open Machine

variable {m : Machine}

/-- The body of a block, with the way out of it, keeps the tally. -/
lemma inside {body : Machine.Action α} {block : Block} (unbroken : IsUnbroken block.suffix)
    (hbody : Yields body m (fun _ m' => Tallies scopes m'.session) (fun _ m' => Tallies scopes m'.session)) :
    Yields (Machine.inside block body) m (fun _ m' => Tallies scopes m'.session)
      (fun _ m' => Tallies scopes m'.session) :=
  .around hbody (fun _ _ h => (h.complete_yields unbroken).onSession)
    (fun _ _ h => (h.abandon_yields block).onSession)

mutual

/-- Every step that writes no text with a line feed keeps the tally. -/
theorem exec (step : Step) (scopes : Scopes) (unbroken : step.Unbroken scopes) (m : Machine)
    (h : Tallies scopes m.session) :
    Yields step.exec m (fun _ m' => Tallies scopes m'.session) (fun _ m' => Tallies scopes m'.session) := by
  cases step with
  | begin target => exact .bind (.begin (h.begin_yields unbroken) h h) fun _ _ h' => h'
  | finish => exact .bind (.finish h.finish_yields) fun _ _ h' => h'.2
  | statement template terminator =>
    exact .bind (h.statement_yields unbroken.1 unbroken.2).onSession fun _ _ h' => h'
  | openBlock header suffix =>
    exact .bind (h.openBlock_yields unbroken.1 unbroken.2).onSession fun _ _ h' => h'
  | closeBlock => exact .bind h.closeBlock_yields.onSession fun _ _ h' => h'
  | emptyBlock header =>
    have none : IsUnbroken "" := nofun
    refine .bind (h.enter_yields unbroken none).onSession fun block m₁ ⟨suffix, h₁⟩ => ?_
    exact inside suffix (.pure h₁)
  | resolve template =>
    refine .bind (h.resolve_yields template).onSession fun _ m' h' => ?_
    exact h'.2
  | block header suffix body =>
    obtain ⟨stays, unbroken, inner⟩ := unbroken
    refine .bind (h.enter_yields stays unbroken).onSession fun block m₁ ⟨suffix, h₁⟩ => ?_
    exact .bind (inside suffix (execAll body scopes inner m₁ h₁)) fun _ _ h' => h'
  | «scoped» scope body =>
    have pushed : Tallies (scope :: scopes) (m.rescoped (scope :: m.session.scopes)).session :=
      ⟨congrArg (scope :: ·) h.scopes, h.lines, h.pending⟩
    have popped (m' : Machine) (h' : Tallies (scope :: scopes) m'.session) :
        Tallies scopes (m'.rescoped m'.session.scopes.tail).session :=
      ⟨congrArg List.tail h'.scopes, h'.lines, h'.pending⟩
    have inner := execAll body (scope :: scopes) unbroken _ pushed
    exact .bind (.inScope inner (fun _ m' h' => popped m' h') fun _ m' h' => popped m' h') fun _ _ h' => h'
  | attempt body => exact .bind (.attempt (execAll body scopes unbroken m h) fun _ _ h' => h') fun _ _ h' => h'
  | run body => exact .bind (execAll body scopes unbroken m h) fun _ _ h' => h'
  | note text => exact h

theorem execAll (steps : List Step) (scopes : Scopes) (unbroken : Step.UnbrokenAll scopes steps) (m : Machine)
    (h : Tallies scopes m.session) :
    Yields (Step.execAll steps) m (fun _ m' => Tallies scopes m'.session)
      (fun _ m' => Tallies scopes m'.session) := by
  cases steps with
  | nil => exact h
  | cons step steps =>
    exact .bind (exec step scopes unbroken.1 m h) fun _ m' h' => execAll steps scopes unbroken.2 m' h'

end

lemma fresh (options : Options) : Tallies [] (.ofOptions options) := by
  refine ⟨rfl, nofun, ?_⟩
  rintro block (_ | ⟨_, ⟨⟩⟩)

/-- Steps that are run whether or not they fail keep the tally. -/
lemma watch (steps : List Step) (unbroken : Step.UnbrokenAll scopes steps) (h : Tallies scopes m.session) :
    Tallies scopes (m.watch steps).2.session := by
  induction steps generalizing m with
  | nil => exact h
  | cons step steps ih => exact ih unbroken.2 (exec step scopes unbroken.1 m h).outcome

/-- The tally is kept in every state that a run passes through, with the scopes that are live there. -/
theorem passes {steps : List Step} {state : Machine} {bodies : Nat} (p : Passes steps m bodies state)
    (unbroken : Step.UnbrokenAll scopes steps) (h : Tallies scopes m.session) :
    ∃ scopes', Tallies scopes' state.session := by
  induction p generalizing scopes with
  | here => exact ⟨scopes, h⟩
  | later hs _ ih =>
    have behind := (exec _ scopes unbroken.1 _ h).of_ok hs
    exact ih unbroken.2 behind
  | failed hs =>
    have behind := (exec _ scopes unbroken.1 _ h).of_error hs
    exact ⟨scopes, behind⟩
  | inBlock hb _ ih =>
    obtain ⟨⟨stays, suffix, body⟩, _⟩ := unbroken
    exact ih body ((h.enter_yields stays suffix).onSession.of_ok hb).2
  | inEmptyBlock hb =>
    have none : IsUnbroken "" := nofun
    exact ⟨scopes, ((h.enter_yields unbroken.1 none).onSession.of_ok hb).2⟩
  | @inScope scope _ _ _ _ _ _ hs _ ih =>
    cases hs
    exact ih unbroken.1 ⟨congrArg (scope :: ·) h.scopes, h.lines, h.pending⟩
  | inAttempt _ ih => exact ih unbroken.1 h
  | inRun _ ih => exact ih unbroken.1 h

end Tallies

/-- Steps that write no text with a line feed are run one after the other whether or not they fail, on sinks
that may refuse bytes. In every state on the way the sink of the pass has as many line feeds as lines are
counted, and so has what an end of the pass gives back there. -/
theorem lines_eq_lineFeeds (options : Options) (disk : Disk) {earlier steps : List Step}
    (unbroken : Step.UnbrokenAll [] earlier) (unbroken' : Step.UnbrokenAll [] steps) {bodies : Nat}
    {state : Machine} (passes : Passes steps ((Machine.ofOptions options disk).watch earlier).2 bodies state) :
    (∀ sink, state.session.writer.sink = some sink → lineFeeds sink.content = state.session.writer.lines) ∧
      ∀ out state', Machine.finish state = .ok out state' →
        lineFeeds out.content = state'.session.writer.lines := by
  have start : Tallies [] (Machine.ofOptions options disk).session := .fresh options
  obtain ⟨scopes, tallies⟩ := (start.watch earlier unbroken).passes passes unbroken'
  exact ⟨tallies.lines, fun out state' ended => ((Yields.finish tallies.finish_yields).of_ok ended).1⟩

/-- A block is left by an error, and behind it a line loses its line feed to a sink of eleven bytes. -/
def cutLine : Program :=
  [.begin (.memory { capacity := some 11 }), .attempt [.block "A" "" [.statement "$missing$" ";"]],
    .openBlock "B" "", .statement "x" ";"]

/-- The closing brace that stands in the sink without its line feed is not counted. -/
theorem lines_eq_lineFeeds_cutLine :
    let state := ((Machine.ofOptions {}).watch cutLine).2
    Step.UnbrokenAll [] cutLine ∧
      ∃ sink, state.session.writer.sink = some sink ∧ sink.content = "A \x7b\n\tB \x7b\n\t\x7d".toUTF8 ∧
      lineFeeds sink.content = 2 ∧
      ∃ out state', Machine.finish state = .ok out state' ∧ lineFeeds out.content = 2 := by
  have single {text : String} (resolved : Template.resolve [] text = .ok text) (unbroken : IsUnbroken text) :
      StaysUnbroken [] text := by
    intro text' resolved'
    cases resolved.symm.trans resolved'
    exact unbroken
  have missing : StaysUnbroken [] "$missing$" := by
    have unbound : Template.resolve [] "$missing$" = .error (.unbound "missing" "$missing$") := by cbv
    intro text resolved
    cases unbound.symm.trans resolved
  have unbroken : Step.UnbrokenAll [] cutLine := by
    refine ⟨rfl, ⟨⟨single (by cbv) ?_, ?_, ⟨missing, ?_⟩, trivial⟩, trivial⟩, ⟨single (by cbv) ?_, ?_⟩,
      ⟨single (by cbv) ?_, ?_⟩, trivial⟩
    all_goals
      unfold IsUnbroken
      decide
  have held : ((Machine.ofOptions {}).watch cutLine).2.session.writer.sink.map Sink.content =
      some "A \x7b\n\tB \x7b\n\t\x7d".toUTF8 := by cbv
  have counted : ((Machine.ofOptions {}).watch cutLine).2.session.writer.lines = 2 := by cbv
  have finished : (Machine.outcome Machine.finish ((Machine.ofOptions {}).watch cutLine).2).1 =
      .ok { content := "A \x7b\n\tB \x7b\n\t\x7d".toUTF8, capacity := some 11 } := by cbv
  have kept : (Machine.outcome Machine.finish ((Machine.ofOptions {}).watch cutLine).2).2.session.writer.lines =
      2 := by cbv
  intro state
  have none : Step.UnbrokenAll [] [] := trivial
  obtain ⟨attached, ended⟩ := lines_eq_lineFeeds {} .empty unbroken none .here
  obtain ⟨sink, hsink, content⟩ := Option.map_eq_some_iff.mp held
  have ends := Machine.eq_ok_of_outcome finished
  exact ⟨unbroken, sink, hsink, content, (attached sink hsink).trans counted, _, _, ends, (ended _ _ ends).trans kept⟩

/-! ## Tidy programs -/

lemma Settles.staysUnbroken {scopes : Scopes} {template : String} (h : Settles scopes template) :
    StaysUnbroken scopes template := by
  obtain ⟨text, resolved, inert⟩ := h
  intro text' resolved'
  cases resolved.symm.trans resolved'
  exact isUnbroken_of_isInert inert

mutual

/-- Tidy steps write no text with a line feed. -/
lemma Step.Tidy.unbroken {scopes : Scopes} {step : Step} (tidy : step.Tidy scopes) :
    step.Unbroken scopes := by
  cases step with
  | statement template terminator => exact ⟨tidy.1.staysUnbroken, isUnbroken_of_isInert tidy.2⟩
  | openBlock header suffix => exact ⟨tidy.1.staysUnbroken, isUnbroken_of_isInert tidy.2⟩
  | emptyBlock header => exact Settles.staysUnbroken tidy
  | block header suffix body =>
    obtain ⟨settles, inert, inner⟩ := tidy
    exact ⟨settles.staysUnbroken, isUnbroken_of_isInert inert, Step.TidyAll.unbroken inner⟩
  | «scoped» scope body => exact Step.TidyAll.unbroken tidy
  | run body => exact Step.TidyAll.unbroken tidy
  | note text => trivial
  | closeBlock => trivial
  | begin target => exact tidy.elim
  | finish => trivial
  | resolve template => trivial
  | attempt body => exact tidy.elim

lemma Step.TidyAll.unbroken {scopes : Scopes} {steps : List Step} (tidy : Step.TidyAll scopes steps) :
    Step.UnbrokenAll scopes steps := by
  cases steps with
  | nil => trivial
  | cons step steps => exact ⟨Step.Tidy.unbroken tidy.1, Step.TidyAll.unbroken tidy.2⟩

end

end Polyadic.Session
