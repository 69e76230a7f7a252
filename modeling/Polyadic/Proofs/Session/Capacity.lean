import Polyadic.Proofs.Session.Apart
import Polyadic.Proofs.Session.Consistency
import Polyadic.Proofs.Session.Operations

/-!
# Passes onto small sinks

A pass onto a sink that is too small for it is the pass onto a sink without limit, cut off at the first byte
that does not fit: from there on it fails, and on its way out it writes nothing. `Truncates` says so of one
operation. It holds of every operation of a session (`Truncates.carries`), is kept when a machine puts these
together (`Truncates.bind`, `Truncates.inside`), and so it holds of all steps that emit (`Truncates.exec`). The
main statement is `pass_truncated`.
-/

namespace Polyadic.Session

namespace Sink

variable {content : ByteArray} {n : Nat} {flushFails : Bool}

lemma toUTF8_join_cons (text : String) (texts : List String) :
    (String.join (text :: texts)).toUTF8 = text.toUTF8 ++ (String.join texts).toUTF8 := by
  rw [String.join_cons]
  exact String.toByteArray_append

lemma write_fits (text : String) (fits : text.toUTF8.size ≤ n - content.size) :
    write ⟨content, some n, flushFails⟩ text = (true, ⟨content ++ text.toUTF8, some n, flushFails⟩) := by
  simp only [write, decide_eq_true fits, extract_whole fits]

/-- A limited sink takes texts like any other as long as they fit. -/
lemma writeAll_fits (texts : List String) (fits : (content ++ (String.join texts).toUTF8).size ≤ n) :
    writeAll ⟨content, some n, flushFails⟩ texts =
      (true, ⟨content ++ (String.join texts).toUTF8, some n, flushFails⟩) := by
  induction texts generalizing content with
  | nil =>
    rw [writeAll, show (String.join []).toUTF8 = ByteArray.empty from rfl, ByteArray.append_empty]
  | cons text texts ih =>
    rw [toUTF8_join_cons, ← ByteArray.append_assoc] at fits ⊢
    have room : text.toUTF8.size ≤ n - content.size := by
      simp only [ByteArray.size_append] at fits
      omega
    rw [writeAll, write_fits text room]
    exact ih fits

/-- Of texts that do not fit, a limited sink keeps what does. -/
lemma writeAll_cut (texts : List String) (room : content.size ≤ n)
    (cut : n < (content ++ (String.join texts).toUTF8).size) :
    writeAll ⟨content, some n, flushFails⟩ texts =
      (false, ⟨(content ++ (String.join texts).toUTF8).extract 0 n, some n, flushFails⟩) := by
  induction texts generalizing content with
  | nil =>
    rw [show (String.join []).toUTF8 = ByteArray.empty from rfl, ByteArray.append_empty] at cut
    omega
  | cons text texts ih =>
    rw [toUTF8_join_cons, ← ByteArray.append_assoc] at cut ⊢
    by_cases fits : text.toUTF8.size ≤ n - content.size
    · have room' : (content ++ text.toUTF8).size ≤ n := by
        rw [ByteArray.size_append]
        omega
      rw [writeAll, write_fits text fits]
      exact ih room' cut
    · have kept : (content ++ text.toUTF8 ++ (String.join texts).toUTF8).extract 0 n =
          content ++ text.toUTF8.extract 0 (n - content.size) := by
        have none : n - (content ++ text.toUTF8).size = 0 := by
          rw [ByteArray.size_append]
          omega
        rw [ByteArray.extract_append, none, Nat.zero_sub, ByteArray.extract_same, ByteArray.append_empty,
          ByteArray.extract_append, extract_whole room, Nat.zero_sub]
      rw [kept, writeAll]
      simp only [write, decide_eq_false fits]

/-- The sink with a limit. -/
def capped (n : Nat) (sink : Sink) : Sink :=
  { sink with capacity := some n }

end Sink

namespace Action

variable {braces : BraceStyle} {indent : Indent} {sink sink' : Sink} {depth lines : Nat} {regions : Regions}
  {scopes : Template.Scopes} {text : String}

lemma writeLine_of_taken (h : sink.writeAll (Writer.linePieces indent depth text) = (true, sink')) :
    ofWriter (Writer.writeLine text) ⟨braces, ⟨indent, some sink, depth, lines⟩, regions, scopes⟩ =
      .ok () ⟨braces, ⟨indent, some sink', depth, lines + 1⟩, regions, scopes⟩ := by
  simp only [ofWriter, Writer.writeLine, h]

lemma writeLine_of_refused (h : sink.writeAll (Writer.linePieces indent depth text) = (false, sink')) :
    ofWriter (Writer.writeLine text) ⟨braces, ⟨indent, some sink, depth, lines⟩, regions, scopes⟩ =
      .error .write ⟨braces, ⟨indent, some sink', depth, lines⟩, regions, scopes⟩ := by
  simp only [ofWriter, Writer.writeLine, h]

end Action

/-- What may have a sink to write to. -/
class Outlet (σ : Type) where
  sink : σ → Option Sink
  /-- The same with a sink that takes so many bytes in all. -/
  capped : Nat → σ → σ

namespace Outlet

variable {σ : Type} [Outlet σ]

/-- The bytes that the sink has taken, if there is one. -/
def written (s : σ) : Option ByteArray :=
  (sink s).map Sink.content

/-- The bytes that were written so far. -/
def content (s : σ) : ByteArray :=
  (written s).getD .empty

/-- The sink, if there is one, is without limit. -/
def Unlimited (s : σ) : Prop :=
  ∀ out ∈ sink s, out.capacity = none

instance : Outlet Session where
  sink s := s.writer.sink
  capped n s := { s with writer := { s.writer with sink := s.writer.sink.map (Sink.capped n) } }

instance : Outlet Machine where
  sink m := m.session.writer.sink
  capped n m := { m with session := capped n m.session }

end Outlet

open Outlet (written content capped Unlimited)

lemma isActive_capped (n : ℕ) (s : Session) : (capped n s).isActive = s.isActive :=
  Option.isSome_map

lemma snapshot_capped (n : ℕ) (s : Session) : (capped n s).snapshot = s.snapshot := by
  unfold snapshot
  rw [isActive_capped]
  rfl

variable {σ : Type} [Outlet σ] {n : Nat}

/-- From `s` to `s'` bytes were written; with a sink of `n` bytes the result is the same if they fit, and a
failure to write behind the first `n` bytes if they do not. -/
structure Truncated (n : Nat) (s s' : σ) (limited whole : EStateM.Result Error σ α) : Prop where
  unlimited : Unlimited s'
  flush : (Outlet.sink s').map Sink.flushFails = (Outlet.sink s).map Sink.flushFails
  grows : ∃ more, content s' = content s ++ more
  fits : (content s').size ≤ n → limited = whole
  cut : (content s).size ≤ n → n < (content s').size →
    ∃ stopped, limited = .error .write stopped ∧ written stopped = some ((content s').extract 0 n)

namespace Truncated

variable {s s' s'' : σ} {limited whole : EStateM.Result Error σ α}
  {limited' next whole' : EStateM.Result Error σ β}

lemma of_same (unlimited : Unlimited s) (sink : Outlet.sink s' = Outlet.sink s) (same : limited = whole) :
    Truncated n s s' limited whole := by
  have content : content s' = content s := by
    unfold Outlet.content written
    rw [sink]
  refine ⟨?_, by rw [sink], ⟨.empty, ?_⟩, fun _ => same, ?_⟩
  · unfold Unlimited
    rwa [sink]
  · rw [content, ByteArray.append_empty]
  · intro room cut
    rw [content] at cut
    omega

/-- What comes next goes on where the limited run agrees, and is not met where it has stopped. -/
lemma trans (first : Truncated n s s' limited whole) (second : Truncated n s' s'' next whole')
    (goes : limited = whole → limited' = next)
    (stops : ∀ stopped, limited = .error .write stopped →
      ∃ out, limited' = .error .write out ∧ written out = written stopped) :
    Truncated n s s'' limited' whole' := by
  obtain ⟨more, grown⟩ := first.grows
  obtain ⟨more', grown'⟩ := second.grows
  have whole : content s'' = content s ++ (more ++ more') := by
    rw [grown', grown, ByteArray.append_assoc]
  have size : (content s').size ≤ (content s'').size := by
    rw [grown', ByteArray.size_append]
    omega
  refine ⟨second.unlimited, second.flush.trans first.flush, ⟨_, whole⟩, fun fits => ?_, fun room cut => ?_⟩
  · rw [goes (first.fits (size.trans fits)), second.fits fits]
  · obtain fits | beyond := Nat.lt_or_ge n (content s').size |>.symm
    · rw [goes (first.fits fits)]
      exact second.cut fits cut
    · obtain ⟨stopped, refused, kept⟩ := first.cut room beyond
      obtain ⟨out, left, same⟩ := stops stopped refused
      refine ⟨out, left, ?_⟩
      have none : n - (content s').size = 0 := by omega
      rw [same, kept, grown', ByteArray.extract_append, none, Nat.zero_sub, ByteArray.extract_same,
        ByteArray.append_empty]

end Truncated

/-- With a sink of `n` bytes the operation does what it does with one without limit, cut off there. -/
def Truncates (n : Nat) (act : EStateM Error σ α) (s : σ) : Prop :=
  Unlimited s →
    Yields act s (fun a s' => Truncated n s s' (act (capped n s)) (.ok a (capped n s')))
      (fun e s' => Truncated n s s' (act (capped n s)) (.error e (capped n s')))

namespace Truncates

variable {act : EStateM Error σ α} {f : α → EStateM Error σ β} {s : σ}

/-- An operation that does not look at the sink. -/
lemma of_silent
    (h : Yields act s (fun a s' => Outlet.sink s' = Outlet.sink s ∧ act (capped n s) = .ok a (capped n s'))
      (fun e s' => Outlet.sink s' = Outlet.sink s ∧ act (capped n s) = .error e (capped n s'))) :
    Truncates n act s :=
  fun unlimited => h.mono (fun _ _ h => .of_same unlimited h.1 h.2) (fun _ _ h => .of_same unlimited h.1 h.2)

lemma pure (a : α) : Truncates n (pure a) s :=
  of_silent ⟨rfl, rfl⟩

lemma throw (e : Error) : Truncates n (throw e : EStateM Error σ α) s :=
  of_silent ⟨rfl, rfl⟩

lemma get_bind {f : σ → EStateM Error σ β} (same : f (capped n s) = f s) (h : Truncates n (f s) s) :
    Truncates n (get >>= f) s := by
  intro unlimited
  show Yields (f s) s (fun a s' => Truncated n s s' (f (capped n s) (capped n s)) (.ok a (capped n s')))
    (fun e s' => Truncated n s s' (f (capped n s) (capped n s)) (.error e (capped n s')))
  rw [same]
  exact h unlimited

lemma bind (first : Truncates n act s) (second : ∀ a s', act s = .ok a s' → Truncates n (f a) s') :
    Truncates n (act >>= f) s := by
  intro unlimited
  have first := first unlimited
  have stops : ∀ stopped, act (capped n s) = .error .write stopped →
      ∃ out, (act >>= f) (capped n s) = .error .write out ∧ written out = written stopped :=
    fun stopped refused => ⟨stopped, bind_of_error refused, rfl⟩
  cases h : act s with
  | ok a s' =>
    have first := first.of_ok h
    have second := second a s' h first.unlimited
    rw [Yields, bind_of_ok h]
    exact second.mono (fun _ _ t => first.trans t bind_of_ok stops)
      (fun _ _ t => first.trans t bind_of_ok stops)
  | error e s' =>
    have first := first.of_error h
    rw [Yields, bind_of_error h]
    exact first.trans (.of_same first.unlimited rfl rfl) bind_of_error stops

end Truncates

/-! ## Operations of the session -/

namespace Truncates

variable {s : Session}

lemma writeLine (text : String) : Truncates n (Action.ofWriter (Writer.writeLine text)) s := by
  obtain ⟨braces, ⟨indent, _ | ⟨content, capacity, flushFails⟩, depth, lines⟩, regions, scopes⟩ := s
  · exact of_silent ⟨rfl, rfl⟩
  · intro unlimited
    obtain rfl : capacity = none := unlimited _ rfl
    let pieces := Writer.linePieces indent depth text
    rw [Yields, Action.writeLine_of_taken (Sink.writeAll_unlimited rfl pieces)]
    refine ⟨?_, rfl, ⟨(String.join pieces).toUTF8, rfl⟩, fun fits => ?_, fun room cut => ?_⟩
    · rintro _ ⟨⟩
      rfl
    · exact Action.writeLine_of_taken (Sink.writeAll_fits pieces fits)
    · exact ⟨_, Action.writeLine_of_refused (Sink.writeAll_cut pieces room cut), rfl⟩

lemma dedent (construct : String) : Truncates n (Action.ofWriter (Writer.dedent construct)) s := by
  obtain ⟨braces, ⟨indent, sink, _ | depth, lines⟩, regions, scopes⟩ := s
  · exact of_silent ⟨rfl, rfl⟩
  · exact of_silent ⟨rfl, rfl⟩

lemma deepen : Truncates n (Action.ofWriter Writer.deepen) s :=
  of_silent ⟨rfl, rfl⟩

lemma takePending : Truncates n Action.takePending s := by
  obtain ⟨braces, writer, _ | ⟨pending, enclosing⟩, scopes⟩ := s
  · exact of_silent ⟨rfl, rfl⟩
  · exact of_silent ⟨rfl, rfl⟩

lemma setPending (block : Block) : Truncates n (Action.setPending block) s := by
  obtain ⟨braces, writer, _ | ⟨pending, enclosing⟩, scopes⟩ := s
  · exact of_silent ⟨rfl, rfl⟩
  · exact of_silent ⟨rfl, rfl⟩

lemma resolve (template : String) : Truncates n (Action.resolve template) s := by
  refine of_silent ?_
  cases h : Template.resolve s.scopes template with
  | ok text =>
    rw [Yields, Action.resolve_of_ok h]
    exact ⟨rfl, Action.resolve_of_ok h⟩
  | error cause =>
    rw [Yields, Action.resolve_of_error h]
    exact ⟨rfl, Action.resolve_of_error h⟩

lemma abandon (block : Block) : Truncates n (Action.abandon block) s := by
  obtain ⟨braces, writer, regions, scopes⟩ := s
  obtain _ | ⟨region, _ | ⟨next, regions⟩⟩ := regions
  · exact of_silent ⟨rfl, rfl⟩
  · exact of_silent ⟨rfl, rfl⟩
  · exact of_silent ⟨rfl, rfl⟩

/-- No operation of a session writes beyond the end of the sink. -/
theorem carries (n : ℕ) : Carries fun act => ∀ s : Session, Truncates n act s where
  pure a _ := pure a
  throw e _ := throw e
  bind first second s := (first s).bind fun a s' _ => second a s'
  get_bind same h s := get_bind (same _ _ (isActive_capped n s) rfl rfl) (h s s)
  writeLine text _ := writeLine text
  dedent construct _ := dedent construct
  deepen _ := deepen
  takePending _ := takePending
  setPending block _ := setPending block
  pushRegion _ := of_silent ⟨rfl, rfl⟩
  resolve template _ := resolve template
  abandon block _ := abandon block

end Truncates

/-! ## Steps -/

namespace Truncates

open Machine

variable {m : Machine} {i : Nat}

lemma onSession {act : Session.Action α} (h : Truncates n act m.session) : Truncates n (onSession act) m := by
  have lift {s' : Session} {limited whole : EStateM.Result Error Session α}
      {limited' whole' : EStateM.Result Error Machine α} (t : Truncated n m.session s' limited whole)
      (goes : limited = whole → limited' = whole')
      (stops : ∀ stopped, limited = .error .write stopped →
        limited' = .error .write { m with session := stopped }) :
      Truncated n m { m with session := s' } limited' whole' := by
    refine ⟨t.unlimited, t.flush, t.grows, fun fits => goes (t.fits fits), fun room cut => ?_⟩
    obtain ⟨stopped, refused, kept⟩ := t.cut room cut
    exact ⟨_, stops stopped refused, kept⟩
  intro unlimited
  have h := h unlimited
  have stops : ∀ stopped, act (capped n m.session) = .error .write stopped →
      Machine.onSession act (capped n m) = .error .write { m with session := stopped } :=
    fun stopped refused => onSession_of_error (m := capped n m) refused
  cases hs : act m.session with
  | ok a s' =>
    have t := h.of_ok hs
    rw [Yields, onSession_of_ok hs]
    exact lift t (fun same => onSession_of_ok (m := capped n m) same) stops
  | error e s' =>
    have t := h.of_error hs
    rw [Yields, onSession_of_error hs]
    exact lift t (fun same => onSession_of_error (m := capped n m) same) stops

/-- Behind a body that is cut off the way out must not fail, nor write. -/
lemma around {body : Machine.Action α} {onSuccess onFailure : Machine.Action Unit} (inner : Truncates n body m)
    (success : ∀ a m', body m = .ok a m' → Truncates n onSuccess m')
    (failure : ∀ e m', body m = .error e m' → Truncates n onFailure m')
    (out : ∀ stopped, body (capped n m) = .error .write stopped →
      ∃ left, onFailure stopped = .ok () left ∧ written left = written stopped) :
    Truncates n (around body onSuccess onFailure) m := by
  intro unlimited
  have inner := inner unlimited
  have stops : ∀ stopped, body (capped n m) = .error .write stopped →
      ∃ left, Machine.around body onSuccess onFailure (capped n m) = .error .write left ∧
        written left = written stopped := by
    intro stopped refused
    obtain ⟨left, leaves, same⟩ := out stopped refused
    exact ⟨left, by rw [around_of_error refused, bind_of_ok leaves]; rfl, same⟩
  cases h : body m with
  | ok a m' =>
    have first := inner.of_ok h
    have second := (success a m' h).bind (fun _ _ _ => pure a) first.unlimited
    rw [Yields, around_of_ok h]
    exact second.mono (fun _ _ t => first.trans t around_of_ok stops) (fun _ _ t => first.trans t around_of_ok stops)
  | error e m' =>
    have first := inner.of_error h
    have second := (failure e m' h).bind (fun _ _ _ => throw (α := α) e) first.unlimited
    rw [Yields, around_of_error h]
    exact second.mono (fun _ _ t => first.trans t around_of_error stops)
      (fun _ _ t => first.trans t around_of_error stops)

/-- In a block that is entered the way out does not fail. -/
lemma inside {body : Machine.Action α} (block : Block) (inner : Truncates n body m)
    (sound : Yields body (capped n m) (fun _ _ => True) (fun _ m' => ∃ k p, Sound (i + 1) k p m'.session)) :
    Truncates n (inside block body) m := by
  refine inner.around (fun _ _ _ => ((carries n).complete block _).onSession) (fun _ _ _ => (abandon block).onSession) ?_
  intro stopped refused
  obtain ⟨k, p, sound⟩ := sound.of_error refused
  obtain ⟨k, rfl, _⟩ := sound.entered_pos
  have leaves : Yields (Action.abandon block) stopped.session (fun _ s' => s'.writer = stopped.session.writer)
      (fun _ _ => False) :=
    (Action.abandon_yields block sound.toLayered).mono (fun _ _ h => h.2.2) fun _ _ h => h
  cases hs : Action.abandon block stopped.session with
  | error e s' => exact (leaves.of_error hs).elim
  | ok _ s' =>
    refine ⟨_, onSession_of_ok hs, ?_⟩
    show s'.writer.sink.map Sink.content = _
    rw [leaves.of_ok hs]
    rfl

/-- The invariant does not depend on the sink. -/
lemma sound_capped (sound : ∃ k p, Sound i k p m.session) : ∃ k p, Sound i k p (capped n m).session := by
  obtain ⟨k, p, sound⟩ := sound
  have same := isActive_capped n m.session
  refine ⟨k, p, ⟨sound.regions, sound.depth⟩, fun idle => ?_, fun bodies => ?_⟩
  · exact sound.idle (same.symm.trans idle)
  · exact ⟨same.trans (sound.inside bodies).1, (sound.inside bodies).2⟩

mutual

/-- A step that emits is cut off where the sink is full. -/
theorem exec (step : Step) (emits : step.Emits) (i : ℕ) (m : Machine) (sound : ∃ k p, Sound i k p m.session) :
    Truncates n step.exec m := by
  cases step with
  | statement template terminator =>
    exact (onSession ((carries n).statement template terminator _)).bind fun _ _ _ => pure _
  | openBlock header suffix => exact (onSession ((carries n).openBlock header suffix _)).bind fun _ _ _ => pure _
  | closeBlock => exact (onSession ((carries n).closeBlock _)).bind fun _ _ _ => pure _
  | emptyBlock header =>
    refine (onSession ((carries n).enterBlock header "" _)).bind fun block m₁ entered => ?_
    exact inside (i := i) block (pure _) trivial
  | block header suffix body =>
    refine (onSession ((carries n).enterBlock header suffix _)).bind fun block m₁ entered => ?_
    have sound₁ := (Sound.runInvariant.enter header suffix sound).onSession.of_ok entered
    have limited := Sound.runInvariant.execAll body (i + 1) _ (sound_capped (n := n) sound₁)
    refine bind (inside (i := i) block (execAll body emits (i + 1) m₁ sound₁) ?_) fun _ _ _ => pure _
    exact limited.mono (fun _ _ _ => trivial) fun _ _ h => h.2
  | «scoped» scope body =>
    refine bind (bind (onSession (of_silent ⟨rfl, rfl⟩)) fun _ m₁ pushed => ?_) fun _ _ _ => pure _
    cases pushed
    have sound₁ := Sound.runInvariant.pushScope scope sound
    have pop {m' : Machine} : Truncates n (Machine.onSession Action.popScope) m' :=
      onSession (of_silent ⟨rfl, rfl⟩)
    exact around (execAll body emits i _ sound₁) (fun _ _ _ => pop) (fun _ _ _ => pop)
      fun stopped _ => ⟨_, rfl, rfl⟩
  | run body => exact bind (execAll body emits i m sound) fun _ _ _ => pure _
  | note text => exact pure _
  | begin target => exact emits.elim
  | finish => exact emits.elim
  | resolve template => exact emits.elim
  | attempt body => exact emits.elim

theorem execAll (steps : List Step) (emits : Step.EmitsAll steps) (i : ℕ) (m : Machine)
    (sound : ∃ k p, Sound i k p m.session) : Truncates n (Step.execAll steps) m := by
  cases steps with
  | nil => exact pure ()
  | cons step steps =>
    refine bind (exec step emits.1 i m sound) fun _ m' done => ?_
    exact execAll steps emits.2 i m' ((Sound.runInvariant.exec step i m sound).of_ok done)

end

end Truncates

/-! ## Passes -/

variable {m m₀ m₁ : Machine} {program : List Step} {sink out : Sink} {e : Error}

/-- What a pass does between its begin and the moment when it gives its sink back. -/
def Machine.fill (program : List Step) : Machine.Action Unit := do
  Step.execAll program
  onSession Action.wrapUp

/-- A pass begins in the same way on any sink. -/
lemma begin_capped (idle : m.session.isActive = false) (n : ℕ) :
    ∃ m₀, Machine.begin (.memory {}) m = .ok () m₀ ∧
      Machine.begin (.memory { capacity := some n }) m = .ok () (capped n m₀) ∧
      m₀.session.writer.sink = some {} ∧ Sound 0 0 none m₀.session := by
  obtain ⟨⟨braces, ⟨indent, _ | sink, depth, lines⟩, regions, scopes⟩, disk, output, released⟩ := m
  · exact ⟨_, rfl, rfl, rfl, .top ⟨rfl, Nat.le_refl 0⟩⟩
  · cases idle

lemma Machine.begin_released (begun : Machine.begin (.memory sink) m = .ok () m₀) :
    m₀.released = m.released := by
  obtain ⟨⟨braces, ⟨indent, _ | sink', depth, lines⟩, regions, scopes⟩, disk, output, released⟩ := m
  · cases begun
    rfl
  · cases begun

lemma StaysApart.fill (emits : Step.EmitsAll program) : StaysApart (Machine.fill program) :=
  bind (execAll program emits) fun _ => onSession _

lemma Truncates.fill (emits : Step.EmitsAll program) (sound : Sound 0 0 none m.session) :
    Truncates n (Machine.fill program) m :=
  (execAll program emits 0 m ⟨0, none, sound⟩).bind fun _ _ _ => ((carries n).wrapUp _).onSession

/-- A pass that has failed still holds its sink. -/
lemma Machine.pass_of_error (emits : Step.EmitsAll program) (idle : m.session.isActive = false)
    (begun : Machine.begin (.memory sink) m = .ok () m₀) (failed : fill program m₀ = .error e m₁)
    (attached : m₁.session.writer.sink = some out) :
    outcome (pass sink program) m = (.error e, m₁) ∧ m₁.sinks = m.sinks ++ [out.content] := by
  have apart := (StaysApart.fill emits m₀).of_error failed
  refine ⟨outcome_of_error ?_, ?_⟩
  · unfold pass
    rw [bind_of_ok begun]
    unfold fill at failed
    cases emitted : Step.execAll program m₀ with
    | error e' m' =>
      rw [bind_of_error emitted] at failed ⊢
      cases failed
      rfl
    | ok _ m' =>
      rw [bind_of_ok emitted] at failed ⊢
      exact bind_of_error failed
  · rw [sinks_idle idle, sinks_attached attached, apart.released, begin_released begun]

/-- A pass that has come to its end gives its sink back, and changes nothing else of the session then. -/
lemma Machine.pass_of_ok (emits : Step.EmitsAll program) (idle : m.session.isActive = false)
    (begun : Machine.begin (.memory sink) m = .ok () m₀) (filled : fill program m₀ = .ok () m₁)
    (attached : m₁.session.writer.sink = some out) (flushes : out.flushFails = false) :
    ∃ m₂, outcome (pass sink program) m = (.ok out, m₂) ∧ m₂.sinks = m.sinks ++ [out.content] ∧
      m₂.session = { m₁.session with writer := { m₁.session.writer with sink := none } } := by
  have released : m₁.released = m.released :=
    ((StaysApart.fill emits m₀).of_ok filled).released.trans (begin_released begun)
  have ended : ∃ m₂, pass sink program m = .ok out m₂ ∧ m₂.released = out :: m₁.released ∧
      m₂.session = { m₁.session with writer := { m₁.session.writer with sink := none } } := by
    unfold pass
    rw [bind_of_ok begun]
    unfold fill at filled
    cases emitted : Step.execAll program m₀ with
    | error e' m' =>
      rw [bind_of_error emitted] at filled
      cases filled
    | ok _ m' =>
      rw [bind_of_ok emitted] at filled ⊢
      unfold finish
      rw [bind_of_ok filled]
      obtain ⟨⟨braces, ⟨indent, _, depth, lines⟩, regions, scopes⟩, disk, output, released⟩ := m₁
      obtain ⟨content, capacity, _⟩ := out
      cases attached
      cases flushes
      cases output with
      | none => exact ⟨_, rfl, rfl, rfl⟩
      | some location => exact ⟨_, rfl, rfl, rfl⟩
  obtain ⟨m₂, passed, grown, session⟩ := ended
  have idle₂ : m₂.session.isActive = false := by
    rw [session]
    rfl
  refine ⟨m₂, outcome_of_ok passed, ?_, session⟩
  rw [sinks_idle idle, sinks_idle idle₂, grown, released, List.reverse_cons, List.map_append]
  rfl

/-- The sink that a pass was begun on is there as long as the pass goes on. -/
lemma Truncated.held {limited whole : EStateM.Result Error Machine α} (t : Truncated n m₀ m₁ limited whole)
    (fresh : m₀.session.writer.sink = some {}) :
    ∃ out, m₁.session.writer.sink = some out ∧ out.flushFails = false ∧ content m₁ = out.content := by
  have flush : m₁.session.writer.sink.map Sink.flushFails = some false :=
    t.flush.trans (congrArg (Option.map _) fresh)
  obtain ⟨out, held, flushes⟩ := Option.map_eq_some_iff.mp flush
  refine ⟨out, held, flushes, ?_⟩
  show (m₁.session.writer.sink.map Sink.content).getD .empty = out.content
  rw [held]
  rfl

/-- A pass that is cut off fails before its sink is given back. -/
lemma Truncated.pass_cut {whole : EStateM.Result Error Machine Unit} (emits : Step.EmitsAll program)
    (idle : m.session.isActive = false) (begun : Machine.begin (.memory sink) m = .ok () (capped n m₀))
    (fresh : m₀.session.writer.sink = some {})
    (t : Truncated n m₀ m₁ (Machine.fill program (capped n m₀)) whole) (cut : n < (content m₁).size) :
    (Machine.outcome (Machine.pass sink program) m).1 = .error .write ∧
      (Machine.outcome (Machine.pass sink program) m).2.sinks = m.sinks ++ [(content m₁).extract 0 n] := by
  have room : (content m₀).size ≤ n := by
    show ((m₀.session.writer.sink.map Sink.content).getD .empty).size ≤ n
    rw [fresh]
    exact Nat.zero_le n
  obtain ⟨stopped, refused, kept⟩ := t.cut room cut
  obtain ⟨out, attached, taken⟩ := Option.map_eq_some_iff.mp kept
  obtain ⟨passed, sinks⟩ := Machine.pass_of_error emits idle begun refused attached
  rw [passed, ← taken]
  exact ⟨rfl, sinks⟩

/-- A pass that emits and is not helped over a failure. Onto a sink that takes so many bytes it does the same
as onto one without limit when the bytes fit, and otherwise it fails to write and leaves there as many of
the bytes as the sink takes. -/
theorem pass_truncated {program : List Step} (emits : Step.EmitsAll program) {m : Machine}
    (idle : m.session.isActive = false) (n : ℕ) :
    let whole := Machine.outcome (Machine.pass {} program) m
    let limited := Machine.outcome (Machine.pass { capacity := some n } program) m
    ∃ bytes : ByteArray, whole.2.sinks = m.sinks ++ [bytes] ∧
      (bytes.size ≤ n →
        limited.1.map Sink.content = whole.1.map Sink.content ∧ limited.2.sinks = m.sinks ++ [bytes] ∧
          limited.2.session.snapshot = whole.2.session.snapshot) ∧
      (n < bytes.size →
        limited.1 = .error .write ∧ limited.2.sinks = m.sinks ++ [bytes.extract 0 n]) := by
  intro whole limited
  obtain ⟨m₀, begun, begun', fresh, sound⟩ := begin_capped idle n
  have unlimited : Unlimited m₀ := by
    rintro _ h
    cases fresh.symm.trans h
    rfl
  have truncates := Truncates.fill (n := n) emits sound unlimited
  cases filled : Machine.fill program m₀ with
  | error e m₁ =>
    have t := truncates.of_error filled
    obtain ⟨out, held, _, bytes⟩ := t.held fresh
    obtain ⟨first, sinks⟩ : whole = (.error e, m₁) ∧ _ := Machine.pass_of_error emits idle begun filled held
    refine ⟨content m₁, by rw [first, bytes, sinks], fun fits => ?_, t.pass_cut emits idle begun' fresh⟩
    have held' : (capped n m₁).session.writer.sink = some (out.capped n) := congrArg (Option.map _) held
    obtain ⟨second, sinks'⟩ : limited = (.error e, capped n m₁) ∧ _ :=
      Machine.pass_of_error emits idle begun' (t.fits fits) held'
    rw [first, second, bytes]
    exact ⟨rfl, sinks', snapshot_capped n m₁.session⟩
  | ok _ m₁ =>
    have t := truncates.of_ok filled
    obtain ⟨out, held, flushes, bytes⟩ := t.held fresh
    obtain ⟨m₂, first, sinks, session⟩ : ∃ m₂, whole = (.ok out, m₂) ∧ _ :=
      Machine.pass_of_ok emits idle begun filled held flushes
    refine ⟨content m₁, by rw [first, bytes, sinks], fun fits => ?_, t.pass_cut emits idle begun' fresh⟩
    have held' : (capped n m₁).session.writer.sink = some (out.capped n) := congrArg (Option.map _) held
    obtain ⟨m₃, second, sinks', session'⟩ : ∃ m₃, limited = (.ok (out.capped n), m₃) ∧ _ :=
      Machine.pass_of_ok emits idle begun' (t.fits fits) held' flushes
    rw [first, second, bytes]
    refine ⟨rfl, sinks', ?_⟩
    rw [session, session']
    rfl

/-- A block that is closed by its sibling, in the body of a block. -/
def siblings : Program :=
  [.block "A" "" [.openBlock "B" "", .statement "x" ";"]]

/-- A sink of eleven bytes takes the brace that the sibling writes, and not its line feed. -/
theorem pass_truncated_siblings :
    let whole := Machine.outcome (Machine.pass {} siblings) (.ofOptions {})
    let limited := Machine.outcome (Machine.pass { capacity := some 11 } siblings) (.ofOptions {})
    whole.2.sinks = ["A \x7b\n\tB \x7b\n\t\x7d\n\tx;\n\x7d\n".toUTF8] ∧ limited.1 = .error .write ∧
      limited.2.sinks = ["A \x7b\n\tB \x7b\n\t\x7d".toUTF8] := by
  have emits : Step.EmitsAll siblings := ⟨⟨trivial, trivial, trivial⟩, trivial⟩
  have sinks : (Machine.outcome (Machine.pass {} siblings) (.ofOptions {})).2.sinks =
      ["A \x7b\n\tB \x7b\n\t\x7d\n\tx;\n\x7d\n".toUTF8] := by cbv
  obtain ⟨bytes, same, _, cut⟩ := pass_truncated emits (m := .ofOptions {}) rfl 11
  obtain ⟨rfl, _⟩ := List.cons.inj (same.symm.trans sinks)
  have limited := cut (by decide)
  exact ⟨sinks, limited.1, limited.2⟩

end Polyadic.Session
