import Polyadic.Session.Program
import Mathlib

/-!
# Outcomes of operations

What an operation on a state does when it is run once: `Yields` gives a condition for its success and one
for its failure. The lemmas take an operation apart along its construction: `Yields.bind` along a
sequence, `Yields.around` along a body with something to be done behind it, `Yields.onSession` from a
machine to its session. `Yields.begin` and `Yields.finish` do the same for the two operations of a
machine that touch its disk as well, so that a property of sessions can be proved of machines.
-/

namespace Polyadic.Session

variable {ε σ α β : Type}

/-- Run from `s`, the operation succeeds with `post` or fails with `fail`. -/
def Yields (act : EStateM ε σ α) (s : σ) (post : α → σ → Prop) (fail : ε → σ → Prop) : Prop :=
  match act s with
  | .ok a s' => post a s'
  | .error e s' => fail e s'

namespace Yields

variable {act : EStateM ε σ α} {s s' : σ} {post post' : α → σ → Prop} {fail fail' : ε → σ → Prop}

lemma of_ok {a : α} (h : act s = .ok a s') (y : Yields act s post fail) : post a s' := by
  unfold Yields at y
  rw [h] at y
  exact y

lemma of_error {e : ε} (h : act s = .error e s') (y : Yields act s post fail) : fail e s' := by
  unfold Yields at y
  rw [h] at y
  exact y

lemma intro (ok : ∀ a s', act s = .ok a s' → post a s')
    (error : ∀ e s', act s = .error e s' → fail e s') : Yields act s post fail := by
  unfold Yields
  cases h : act s with
  | ok a s' => exact ok a s' h
  | error e s' => exact error e s' h

lemma mono (y : Yields act s post fail) (hp : ∀ a s', post a s' → post' a s')
    (hf : ∀ e s', fail e s' → fail' e s') : Yields act s post' fail' :=
  intro (fun a s' h => hp a s' (y.of_ok h)) (fun e s' h => hf e s' (y.of_error h))

lemma pure {a : α} (h : post a s) : Yields (pure a) s post fail :=
  h

lemma throw {e : ε} (h : fail e s) : Yields (throw e) s post fail :=
  h

/-- A sequence: the second operation runs from where the first succeeded. -/
lemma bind {f : α → EStateM ε σ β} {after : β → σ → Prop} (first : Yields act s post fail')
    (second : ∀ a s', post a s' → Yields (f a) s' after fail') :
    Yields (act >>= f) s after fail' := by
  unfold Yields at first ⊢
  show match EStateM.bind act f s with | .ok b s' => after b s' | .error e s' => fail' e s'
  unfold EStateM.bind
  cases h : act s with
  | ok a s' =>
    rw [h] at first
    exact second a s' first
  | error e s' =>
    rw [h] at first
    exact first

lemma and (y : Yields act s post fail) (y' : Yields act s post' fail') :
    Yields act s (fun a s' => post a s' ∧ post' a s') (fun e s' => fail e s' ∧ fail' e s') :=
  intro (fun _ _ h => ⟨y.of_ok h, y'.of_ok h⟩) (fun _ _ h => ⟨y.of_error h, y'.of_error h⟩)

lemma with_run (y : Yields act s post fail) :
    Yields act s (fun a s' => act s = .ok a s' ∧ post a s')
      (fun e s' => act s = .error e s' ∧ fail e s') :=
  intro (fun _ _ h => ⟨h, y.of_ok h⟩) (fun _ _ h => ⟨h, y.of_error h⟩)

lemma with_ok (y : Yields act s post fail) :
    Yields act s (fun a s' => act s = .ok a s' ∧ post a s') fail :=
  y.with_run.mono (fun _ _ h => h) fun _ _ h => h.2

lemma get_bind {f : σ → EStateM ε σ β} {after : β → σ → Prop} (y : Yields (f s) s after fail) :
    Yields (get >>= f) s after fail :=
  y

/-- Resolving a template changes nothing, and fails for a placeholder only. -/
lemma resolve {s : Session} {template : String} {fail : Error → Session → Prop}
    (h : ∀ cause, fail (.placeholder cause) s) :
    Yields (Action.resolve template) s (fun _ s' => s' = s) fail := by
  unfold Yields Action.resolve
  cases Template.resolve s.scopes template with
  | ok text => rfl
  | error cause => exact h cause

/-- An explicit close does what the close for a next step does, but is refused when no block is pending. -/
lemma closeBlock {s : Session} {before post : Session → Prop} {fail : Error → Session → Prop}
    (y : Yields Action.closeIfPending s (fun _ => before) fail)
    (close : s.regions.pending.isSome = true → ∀ s', before s' → post s')
    (refuse : s.regions.pending = none → ∀ s', before s' → fail (.imbalance .nonePending) s') :
    Yields Action.closeBlock s (fun _ => post) fail := by
  obtain ⟨braces, writer, regions, scopes⟩ := s
  match regions with
  | [] => exact y
  | none :: enclosing => exact refuse rfl _ y
  | some block :: enclosing => exact Yields.mono y (fun _ s' h => close rfl s' h) fun _ _ h => h

/-- The end of a pass is refused without one and inside a block; else the pending block is closed for it. -/
lemma wrapUp {s : Session} {post : Unit → Session → Prop} {fail : Error → Session → Prop}
    (idle : s.isActive = false → fail .noSink s)
    (inside : s.isActive = true → s.regions.entered ≠ 0 → fail (.imbalance .endingInside) s)
    (close : s.isActive = true → s.regions.entered = 0 → Yields Action.closeIfPending s post fail) :
    Yields Action.wrapUp s post fail := by
  refine .get_bind ?_
  cases active : s.isActive with
  | false => exact idle active
  | true =>
    by_cases top : s.regions.entered = 0
    · simp only [top, Bool.not_true, Bool.false_eq_true, ↓reduceIte, ne_eq, not_true_eq_false]
      exact close active top
    · simp only [top, Bool.not_true, Bool.false_eq_true, ↓reduceIte, ne_eq, not_false_eq_true]
      exact inside active top

/-- The sink is given back when it can be flushed, and given up when it cannot. -/
lemma detach {s : Session} {post : Sink → Session → Prop} {fail : Error → Session → Prop}
    (idle : s.isActive = false → fail .noSink s)
    (flushed : ∀ sink, s.writer.sink = some sink → sink.flushFails = false →
      post sink { s with writer := { s.writer with sink := none } })
    (unflushed : ∀ sink, s.writer.sink = some sink → sink.flushFails = true →
      fail .write { s with writer := { s.writer with sink := none } }) :
    Yields (Action.ofWriter Writer.detach) s post fail := by
  obtain ⟨braces, ⟨indent, _ | sink, depth, lines⟩, regions, scopes⟩ := s
  · exact idle rfl
  · unfold Yields
    simp only [Action.ofWriter, Writer.detach]
    cases flushes : sink.flushFails with
    | true => exact unflushed sink rfl flushes
    | false => exact flushed sink rfl flushes

end Yields

lemma bind_of_ok {act : EStateM ε σ α} {f : α → EStateM ε σ β} {s s' : σ} {a : α}
    (h : act s = .ok a s') : (act >>= f) s = f a s' := by
  show EStateM.bind act f s = _
  unfold EStateM.bind
  rw [h]

lemma bind_of_error {act : EStateM ε σ α} {f : α → EStateM ε σ β} {s s' : σ} {e : ε}
    (h : act s = .error e s') : (act >>= f) s = .error e s' := by
  show EStateM.bind act f s = _
  unfold EStateM.bind
  rw [h]

namespace Action

variable {s : Session} {template : String}

lemma resolve_of_ok {text : String} (h : Template.resolve s.scopes template = .ok text) :
    resolve template s = .ok text s := by
  unfold resolve
  rw [h]

lemma resolve_of_error {cause : Template.Error} (h : Template.resolve s.scopes template = .error cause) :
    resolve template s = .error (.placeholder cause) s := by
  unfold resolve
  rw [h]

end Action

namespace Machine

variable {m : Machine}

/-- An operation of the session does to the session of a machine what it does alone. -/
lemma onSession_of_ok {act : Session.Action α} {a : α} {s : Session} (h : act m.session = .ok a s) :
    onSession act m = .ok a { m with session := s } := by
  obtain ⟨session, disk, output, released⟩ := m
  simp only [onSession, h]

lemma onSession_of_error {act : Session.Action α} {e : Error} {s : Session}
    (h : act m.session = .error e s) : onSession act m = .error e { m with session := s } := by
  obtain ⟨session, disk, output, released⟩ := m
  simp only [onSession, h]

/-- Behind a body that succeeds comes the one operation. -/
lemma around_of_ok {body : Machine.Action α} {onSuccess onFailure : Machine.Action Unit} {a : α}
    {m' : Machine} (h : body m = .ok a m') :
    around body onSuccess onFailure m = (onSuccess >>= fun _ => pure a) m' := by
  show _ = EStateM.bind onSuccess (fun _ => pure a) m'
  unfold around EStateM.bind
  rw [h]
  cases hs : onSuccess m' with
  | ok u m'' => simp only [hs]; rfl
  | error e m'' => simp only [hs]

lemma around_of_error {body : Machine.Action α} {onSuccess onFailure : Machine.Action Unit} {e : Error}
    {m' : Machine} (h : body m = .error e m') :
    around body onSuccess onFailure m = (onFailure >>= fun _ => throw e) m' := by
  show _ = EStateM.bind onFailure (fun _ => throw e) m'
  unfold around EStateM.bind
  rw [h]
  cases hf : onFailure m' with
  | ok u m'' => simp only [hf]; rfl
  | error e m'' => simp only [hf]

/-- The sink that a pass starts on. -/
def sinkOf : Target → Sink
  | .memory sink => sink
  | .file _ => {}

def rescoped (m : Machine) (scopes : Template.Scopes) : Machine :=
  { m with session := { m.session with scopes } }

lemma store_session (sink : Sink) (m : Machine) : (store sink m).session = m.session := by
  unfold store
  split <;> rfl

end Machine

namespace Yields

open Machine

variable {m : Machine}

/-- A property of sessions that an operation yields, it yields on the session of a machine. -/
lemma onSession {act : Session.Action α} {post : α → Session → Prop} {fail : Error → Session → Prop}
    (y : Yields act m.session post fail) :
    Yields (Machine.onSession act) m (fun a m' => post a m'.session)
      (fun e m' => fail e m'.session) := by
  unfold Yields
  cases h : act m.session with
  | ok a s =>
    rw [onSession_of_ok h]
    have hp := y.of_ok h
    exact hp
  | error e s =>
    rw [onSession_of_error h]
    have hf := y.of_error h
    exact hf

lemma onDisk {act : Disk.Action α} :
    Yields (Machine.onDisk act) m (fun _ m' => m'.session = m.session)
      (fun e m' => e = .write ∧ m'.session = m.session) := by
  obtain ⟨session, disk, output, released⟩ := m
  unfold Yields Machine.onDisk
  cases h : act disk with
  | ok a disk => simp only [h]
  | error e disk => simp only [h, and_self]

lemma around {body : Machine.Action α} {onSuccess onFailure : Machine.Action Unit}
    {inner : α → Machine → Prop} {failed : Error → Machine → Prop}
    {post : α → Machine → Prop} {fail : Error → Machine → Prop}
    (hbody : Yields body m inner failed)
    (success : ∀ a m', inner a m' → Yields onSuccess m' (fun _ => post a) fail)
    (failure : ∀ e m', failed e m' → Yields onFailure m' (fun _ => fail e) fail) :
    Yields (Machine.around body onSuccess onFailure) m post fail := by
  cases hb : body m with
  | ok a m' =>
    rw [Yields, around_of_ok hb]
    exact Yields.bind (success a m' (hbody.of_ok hb)) fun _ _ h => h
  | error e m' =>
    rw [Yields, around_of_error hb]
    exact Yields.bind (failure e m' (hbody.of_error hb)) fun _ _ h => h

/-- A body with one more scope, which is dropped behind it in any case. -/
lemma inScope {body : Machine.Action α} {scope : Template.Scope}
    {inner : α → Machine → Prop} {failed : Error → Machine → Prop}
    {post : α → Machine → Prop} {fail : Error → Machine → Prop}
    (hbody : Yields body (m.rescoped (scope :: m.session.scopes)) inner failed)
    (success : ∀ a m', inner a m' → post a (m'.rescoped m'.session.scopes.tail))
    (failure : ∀ e m', failed e m' → fail e (m'.rescoped m'.session.scopes.tail)) :
    Yields (Machine.inScope scope body) m post fail := by
  have push : Machine.onSession (Action.pushScope scope) m =
      .ok () (m.rescoped (scope :: m.session.scopes)) := onSession_of_ok rfl
  unfold Machine.inScope
  rw [Yields, bind_of_ok push]
  exact around hbody success failure

lemma attempt {body : Machine.Action Unit} {post : Machine → Prop} {failed : Error → Machine → Prop}
    {fail : Error → Machine → Prop}
    (hbody : Yields body m (fun _ => post) failed) (hfailed : ∀ e m', failed e m' → post m') :
    Yields (Machine.attempt body) m (fun _ => post) fail := by
  unfold Yields Machine.attempt
  cases hb : body m with
  | ok u m' =>
    have hp := hbody.of_ok hb
    exact hp
  | error e m' =>
    have hp := hfailed e m' (hbody.of_error hb)
    exact hp

/-- What the begin of a pass yields on the session, and what a refusal before it would be, the begin of
the machine yields. -/
lemma begin {target : Target} {post : Session → Prop} {fail : Error → Session → Prop}
    (y : Yields (Action.begin (sinkOf target)) m.session (fun _ => post) fail)
    (active : fail .alreadyActive m.session) (refused : fail .write m.session) :
    Yields (Machine.begin target) m (fun _ m' => post m'.session) (fun e m' => fail e m'.session) := by
  have onDisk' {α : Type} {act : Disk.Action α} {m' : Machine} (same : m'.session = m.session) :
      Yields (Machine.onDisk act) m' (fun _ m'' => m''.session = m.session)
        (fun e m'' => fail e m''.session) := by
    refine onDisk.mono (fun _ m'' h => h.trans same) ?_
    rintro e m'' ⟨rfl, h⟩
    rw [h, same]
    exact refused
  cases target with
  | memory sink =>
    refine .bind y.onSession ?_
    intro _ m' h
    exact h
  | file path =>
    refine .get_bind ?_
    split
    · exact active
    · refine .bind (onDisk' rfl) fun _ m₁ h₁ => ?_
      refine .bind (onDisk' h₁) fun location m₂ h₂ => ?_
      refine .bind (h₂ ▸ y).onSession fun _ m₃ h₃ => ?_
      exact h₃

/-- What the end of a pass yields on the session, the end on the machine yields. -/
lemma finish {post : Sink → Session → Prop} {fail : Error → Session → Prop}
    (y : Yields Action.finish m.session post fail) :
    Yields Machine.finish m (fun out m' => post out m'.session) (fun e m' => fail e m'.session) := by
  unfold Action.finish at y
  unfold Machine.finish
  cases hw : Action.wrapUp m.session with
  | error e s =>
    rw [Yields, bind_of_error hw] at y
    rw [Yields, bind_of_error (onSession_of_error hw)]
    exact y
  | ok u s =>
    rw [Yields, bind_of_ok hw] at y
    rw [Yields, bind_of_ok (onSession_of_ok hw)]
    obtain ⟨braces, ⟨indent, _ | sink, depth, lines⟩, regions, scopes⟩ := s
    · exact y
    · cases hd : Action.ofWriter Writer.detach
          ⟨braces, ⟨indent, some sink, depth, lines⟩, regions, scopes⟩ with
      | error e s =>
        rw [hd] at y
        show Yields (Machine.onSession (Action.ofWriter Writer.detach) >>= _) _ _ _
        rw [Yields, bind_of_error (onSession_of_error hd)]
        exact y
      | ok a s =>
        rw [hd] at y
        show Yields (Machine.onSession (Action.ofWriter Writer.detach) >>= _) _ _ _
        rw [Yields, bind_of_ok (onSession_of_ok hd)]
        show post a (store a _).session
        rw [store_session]
        exact y

end Yields

/-- A pass begins only between two passes, on the sink, at depth zero and at the top level. -/
lemma Machine.session_begin {target : Target} {m begun : Machine} (h : Machine.begin target m = .ok () begun) :
    m.session.isActive = false ∧
      begun.session = { m.session with
        writer := { m.session.writer with sink := some (sinkOf target), depth := 0, lines := 0 }, regions := .top } := by
  have attached : Yields (Action.begin (sinkOf target)) m.session
      (fun _ s => m.session.isActive = false ∧ s = { m.session with
        writer := { m.session.writer with sink := some (sinkOf target), depth := 0, lines := 0 }, regions := .top })
      (fun _ _ => True) := by
    obtain ⟨⟨braces, ⟨indent, _ | sink, depth, lines⟩, regions, scopes⟩, disk, output, released⟩ := m
    · exact ⟨rfl, rfl⟩
    · trivial
  have begins := (Yields.begin attached trivial trivial).of_ok h
  exact begins

end Polyadic.Session
