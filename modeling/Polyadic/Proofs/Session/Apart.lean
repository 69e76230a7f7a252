import Polyadic.Proofs.Session.Operations

/-!
# What emitting leaves alone

Between its begin and its end a pass works on the session alone: it touches neither the disk nor the sinks
that were released before (`StaysApart.execAll`). The end of a pass puts what it gives back where the pass
goes to (`finish_disk`).
-/

namespace Polyadic.Session

open Machine (onSession store)

/-- Two machines have the same disk, their passes go to the same file, and the same sinks were released
before. -/
structure Apart (m m' : Machine) : Prop where
  disk : m'.disk = m.disk
  output : m'.output = m.output
  released : m'.released = m.released

namespace Apart

variable {m m' m'' : Machine}

lemma refl (m : Machine) : Apart m m :=
  ⟨rfl, rfl, rfl⟩

lemma trans (h : Apart m m') (h' : Apart m' m'') : Apart m m'' :=
  ⟨h'.disk.trans h.disk, h'.output.trans h.output, h'.released.trans h.released⟩

end Apart

lemma Machine.store_disk {m m' : Machine} (disk : m'.disk = m.disk) (output : m'.output = m.output)
    (sink : Sink) : (store sink m').disk = (store sink m).disk := by
  unfold store
  rw [output]
  cases m.output with
  | none => exact disk
  | some location =>
    show m'.disk.set location _ = m.disk.set location _
    rw [disk]

/-- The operation does not touch the disk, whether it succeeds or fails. -/
def StaysApart (act : Machine.Action α) : Prop :=
  ∀ m, Yields act m (fun _ => Apart m) (fun _ => Apart m)

namespace StaysApart

variable {act : Machine.Action α} {f : α → Machine.Action β} {onSuccess onFailure : Machine.Action Unit}

lemma pure (a : α) : StaysApart (pure a) :=
  Apart.refl

lemma bind (h : StaysApart act) (h' : ∀ a, StaysApart (f a)) : StaysApart (act >>= f) := fun m =>
  .bind (h m) fun a m' first =>
    (h' a m').mono (fun _ _ second => first.trans second) (fun _ _ second => first.trans second)

lemma onSession (act : Session.Action α) : StaysApart (onSession act) := by
  intro m
  unfold Yields
  cases h : act m.session with
  | ok a s =>
    rw [Machine.onSession_of_ok h]
    exact ⟨rfl, rfl, rfl⟩
  | error e s =>
    rw [Machine.onSession_of_error h]
    exact ⟨rfl, rfl, rfl⟩

lemma around (h : StaysApart act) (hs : StaysApart onSuccess) (hf : StaysApart onFailure) :
    StaysApart (Machine.around act onSuccess onFailure) := fun m =>
  .around (h m)
    (fun _ m' first => (hs m').mono (fun _ _ second => first.trans second) fun _ _ second => first.trans second)
    (fun _ m' first => (hf m').mono (fun _ _ second => first.trans second) fun _ _ second => first.trans second)

lemma attempt {body : Machine.Action Unit} (h : StaysApart body) : StaysApart (Machine.attempt body) := fun m =>
  .attempt (h m) fun _ _ apart => apart

/-- No operation of a session touches the disk of the machine. -/
theorem carries : Machine.Carries StaysApart where
  pure := pure
  bind := bind
  onSession := onSession
  around := around
  attempt := attempt

/-- A program that emits does not touch the disk. -/
theorem execAll (steps : List Step) (emits : Step.EmitsAll steps) : StaysApart (Step.execAll steps) :=
  carries.execAll steps (.inl emits)

end StaysApart

lemma Machine.sinks_idle {m : Machine} (idle : m.session.isActive = false) :
    m.sinks = m.released.reverse.map Sink.content := by
  obtain ⟨⟨braces, ⟨indent, _ | sink, depth, lines⟩, regions, scopes⟩, disk, output, released⟩ := m
  · show (released.reverse ++ []).map Sink.content = _
    rw [List.append_nil]
  · cases idle

lemma Machine.sinks_attached {m : Machine} {sink : Sink} (attached : m.session.writer.sink = some sink) :
    m.sinks = m.released.reverse.map Sink.content ++ [sink.content] := by
  unfold sinks
  rw [attached, List.map_append]
  rfl

/-- The end of a pass puts what it gives back where the pass goes to. -/
lemma finish_disk (m : Machine) :
    Yields Machine.finish m (fun out m' => m'.disk = (store out m).disk) (fun _ m' => m'.disk = m.disk) := by
  refine .bind ((StaysApart.onSession Action.wrapUp m).mono (fun _ _ h => h) fun _ _ h => h.disk) ?_
  intro _ m₁ h₁
  refine .get_bind ?_
  cases m₁.session.writer.sink with
  | none => exact h₁.disk
  | some sink =>
    let held : Machine := { m₁ with released := sink :: m₁.released }
    have ended : Yields (onSession (Action.ofWriter Writer.detach)) held (fun _ => Apart held)
        (fun _ m' => m'.disk = m.disk) :=
      (StaysApart.onSession _ held).mono (fun _ _ h => h) fun _ _ h => h.disk.trans h₁.disk
    show Yields (onSession (Action.ofWriter Writer.detach) >>= _) held _ _
    refine .bind ended ?_
    intro out m₂ h₂
    exact Machine.store_disk (h₂.disk.trans h₁.disk) (h₂.output.trans h₁.output) out

end Polyadic.Session
