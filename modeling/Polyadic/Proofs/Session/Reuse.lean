import Polyadic.Proofs.Session.Apart
import Polyadic.Proofs.Session.Consistency
import Polyadic.Proofs.Session.Scoping

/-!
# Sessions used again

A session that has come back to rest between two passes is as good as a fresh one. A machine never looks at
the sinks it has released (`Blind`), so a run behind earlier ones does what it does without them
(`Blind.exec`, `watch_following`), and the begin of a pass forgets all else that earlier passes have left
(`begin_following`). At rest itself nothing happens: a step that begins no pass leaves the machine alone
(`Resting.exec`) and enters no block (`Resting.passes`). Both together are `reused_as_fresh`.
-/

namespace Polyadic.Session

open Machine

/-! ## Sinks released earlier -/

/-- The machine behind passes that have released such sinks, latest first. -/
def Machine.following (m : Machine) (earlier : List Sink) : Machine :=
  { m with released := m.released ++ earlier }

/-- What an operation gives, behind passes that have released such sinks. -/
def Machine.resultFollowing (earlier : List Sink) :
    EStateM.Result Error Machine α → EStateM.Result Error Machine α
  | .ok a m => .ok a (m.following earlier)
  | .error e m => .error e (m.following earlier)

lemma Machine.store_following (sink : Sink) (m : Machine) (earlier : List Sink) :
    store sink (m.following earlier) = (store sink m).following earlier := by
  obtain ⟨session, disk, output, released⟩ := m
  cases output with
  | none => rfl
  | some location => rfl

/-- The operation does not look at the sinks that were released before. -/
def Blind (act : Machine.Action α) : Prop :=
  ∀ m earlier, act (m.following earlier) = resultFollowing earlier (act m)

namespace Blind

variable {act : Machine.Action α} {f : α → Machine.Action β}

lemma pure (a : α) : Blind (pure a) :=
  fun _ _ => rfl

lemma throw (e : Error) : Blind (throw e : Machine.Action α) :=
  fun _ _ => rfl

lemma bind (first : Blind act) (second : ∀ a, Blind (f a)) : Blind (act >>= f) := by
  intro m earlier
  have start := first m earlier
  cases h : act m with
  | ok a m' =>
    rw [h] at start
    rw [bind_of_ok start, bind_of_ok h]
    exact second a m' earlier
  | error e m' =>
    rw [h] at start
    rw [bind_of_error start, bind_of_error h]
    rfl

lemma onSession (act : Session.Action α) : Blind (onSession act) := by
  intro m earlier
  cases h : act m.session with
  | ok a s =>
    rw [onSession_of_ok h]
    exact onSession_of_ok h
  | error e s =>
    rw [onSession_of_error h]
    exact onSession_of_error h

lemma onDisk (act : Disk.Action α) : Blind (onDisk act) := by
  rintro ⟨session, disk, output, released⟩ earlier
  unfold Machine.onDisk following
  dsimp only
  cases act disk with
  | ok a disk => rfl
  | error e disk => rfl

lemma update {g : Machine → Machine} (h : ∀ m earlier, g (m.following earlier) = (g m).following earlier) :
    Blind (modify g) := by
  intro m earlier
  show EStateM.Result.ok () (g (m.following earlier)) = .ok () ((g m).following earlier)
  rw [h]

lemma get_bind {f : Machine → Machine.Action α} (h : ∀ m, Blind (f m))
    (same : ∀ m earlier, f (m.following earlier) = f m) : Blind (get >>= f) := by
  intro m earlier
  show f (m.following earlier) (m.following earlier) = resultFollowing earlier (f m m)
  rw [same]
  exact h m m earlier

lemma around {onSuccess onFailure : Machine.Action Unit} (h : Blind act) (success : Blind onSuccess)
    (failure : Blind onFailure) : Blind (around act onSuccess onFailure) := by
  intro m earlier
  have start := h m earlier
  cases hb : act m with
  | ok a m' =>
    rw [hb] at start
    rw [around_of_ok start, around_of_ok hb]
    exact bind success (fun _ => pure a) m' earlier
  | error e m' =>
    rw [hb] at start
    rw [around_of_error start, around_of_error hb]
    exact bind failure (fun _ => throw e) m' earlier

lemma attempt {act : Machine.Action Unit} (h : Blind act) : Blind (attempt act) := by
  intro m earlier
  have start := h m earlier
  unfold Machine.attempt
  cases hb : act m with
  | ok u m' =>
    rw [hb] at start
    rw [start]
    rfl
  | error e m' =>
    rw [hb] at start
    rw [start]
    rfl

lemma begin (target : Target) : Blind (Machine.begin target) := by
  have record (output : Option Disk.Location) : Blind (modify ({ · with output })) :=
    update fun _ _ => rfl
  cases target with
  | memory sink => exact bind (onSession _) fun _ => record none
  | file path =>
    have create : Blind (do
        Machine.onDisk (Disk.makeParent path)
        let location ← Machine.onDisk (Disk.createFile path)
        Machine.onSession (Action.begin {})
        modify ({ · with output := some location })) :=
      bind (onDisk _) fun _ => bind (onDisk _) fun _ => bind (onSession _) fun _ => record _
    refine get_bind (fun m => ?_) fun _ _ => rfl
    split
    · exact bind (throw _) fun _ => create
    · exact create

lemma finish : Blind Machine.finish := by
  refine bind (onSession _) fun _ => get_bind (fun m => ?_) fun _ _ => rfl
  split
  · exact throw _
  · refine bind (update fun _ _ => rfl) fun _ => bind (onSession _) fun sink => ?_
    exact bind (update (store_following sink)) fun _ => pure _

theorem carries : Machine.Carries Blind where
  pure := pure
  bind := bind
  onSession := onSession
  around := around
  attempt := attempt

/-- No step looks at the sinks that were released before it. -/
theorem exec (step : Step) : Blind step.exec :=
  carries.exec step (.inr ⟨begin, finish⟩)

lemma outcome {act : Machine.Action α} (h : Blind act) (m : Machine) (earlier : List Sink) :
    Machine.outcome act (m.following earlier) =
      ((Machine.outcome act m).1, (Machine.outcome act m).2.following earlier) := by
  unfold Machine.outcome
  rw [h]
  cases act m with
  | ok a m' => rfl
  | error e m' => rfl

end Blind

lemma Step.entry_following (step : Step) (m : Machine) (earlier : List Sink) :
    step.entry (m.following earlier) = step.entry m := by
  unfold Step.entry
  rw [(Blind.exec step).outcome]
  rfl

mutual

/-- What is seen of a step does not depend on the sinks that were released before it. -/
theorem Step.trace_following (step : Step) (m : Machine) (earlier : List Sink) :
    step.trace (m.following earlier) = step.trace m := by
  cases step with
  | block header suffix body =>
    have entered := (Blind.onSession (do Action.openBlock header suffix; Action.enter)) m earlier
    rw [Step.trace, Step.trace, Step.entry_following, enterBlock, entered]
    cases onSession (do Action.openBlock header suffix; Action.enter) m with
    | ok block inner =>
      show _ :: (Step.traceAll body (inner.following earlier) ++ _) = _
      rw [Step.traceAll_following body inner earlier]
      rfl
    | error e m' => rfl
  | «scoped» scope body =>
    have pushed := Blind.onSession (Action.pushScope scope) m earlier
    rw [Step.trace, Step.trace, Step.entry_following, pushed]
    cases onSession (Action.pushScope scope) m with
    | ok _ inner =>
      show Step.traceAll body (inner.following earlier) ++ _ = _
      rw [Step.traceAll_following body inner earlier]
    | error e m' => rfl
  | attempt body =>
    rw [Step.trace, Step.trace, Step.entry_following, Step.traceAll_following body m earlier]
  | begin | finish | statement | openBlock | closeBlock | emptyBlock | resolve | run | note =>
    exact congrArg ([·]) (Step.entry_following _ m earlier)

theorem Step.traceAll_following (steps : List Step) (m : Machine) (earlier : List Sink) :
    Step.traceAll steps (m.following earlier) = Step.traceAll steps m := by
  cases steps with
  | nil => rfl
  | cons step steps =>
    rw [Step.traceAll, Step.traceAll, Step.trace_following step m earlier, Blind.exec step m earlier]
    cases step.exec m with
    | ok answer m' =>
      show _ ++ Step.traceAll steps (m'.following earlier) = _
      rw [Step.traceAll_following steps m' earlier]
    | error e m' => rfl

end

/-- Steps that run behind earlier passes are seen to do what they do without them, and release the same
sinks. -/
theorem Machine.watch_following (steps : List Step) (m : Machine) (earlier : List Sink) :
    (m.following earlier).watch steps = ((m.watch steps).1, (m.watch steps).2.following earlier) := by
  induction steps generalizing m with
  | nil => rfl
  | cons step steps ih =>
    rw [watch, watch, Step.trace_following, (Blind.exec step).outcome, ih]

/-- The begin of a pass forgets what is left of earlier ones, but for the sinks they have released. -/
lemma begin_following {options : Options} {m : Machine} (within : Within options [] m.session)
    (idle : m.session.isActive = false) (sink : Sink) :
    ∃ begun, Step.exec (.begin (.memory sink)) (Machine.ofOptions options m.disk) = .ok .done begun ∧
      Step.exec (.begin (.memory sink)) m = .ok .done (begun.following m.released) := by
  obtain ⟨⟨braces, ⟨indent, _ | sink', depth, lines⟩, regions, scopes⟩, disk, output, released⟩ := m
  · obtain ⟨rfl, rfl⟩ := within
    exact ⟨_, rfl, rfl⟩
  · cases idle

/-- A pass that begins at rest is seen to do what it does in a fresh session. -/
lemma watch_begin_following {options : Options} {m : Machine} (within : Within options [] m.session)
    (idle : m.session.isActive = false) (sink : Sink) (program : List Step) {fresh : List Entry × Machine}
    (h : fresh = (Machine.ofOptions options m.disk).watch (.begin (.memory sink) :: program)) :
    m.watch (.begin (.memory sink) :: program) = (fresh.1, fresh.2.following m.released) := by
  subst h
  obtain ⟨begun, first, again⟩ := begin_following within idle sink
  have outcome := outcome_of_ok first
  have outcome' := outcome_of_ok again
  have seen : Step.trace (.begin (.memory sink)) m =
      Step.trace (.begin (.memory sink)) (Machine.ofOptions options m.disk) := by
    show [Step.entry _ _] = [Step.entry _ _]
    rw [Step.entry, Step.entry, outcome, outcome']
    rfl
  rw [watch, watch, outcome, outcome', watch_following, seen]

/-! ## Rest -/

mutual

/-- The step begins no pass. -/
def Step.NeverBegins : Step → Prop
  | .begin _ => False
  | .block _ _ body => Step.NeverBeginsAll body
  | .scoped _ body => Step.NeverBeginsAll body
  | .attempt body => Step.NeverBeginsAll body
  | .run body => Step.NeverBeginsAll body
  | .finish | .statement .. | .openBlock .. | .closeBlock | .emptyBlock _ | .resolve _ | .note _ => True

def Step.NeverBeginsAll : List Step → Prop
  | [] => True
  | step :: steps => step.NeverBegins ∧ Step.NeverBeginsAll steps

end

/-- The session is between two passes, at the top level. -/
structure Resting (s : Session) : Prop where
  idle : s.isActive = false
  regions : s.regions = .top

lemma Sound.resting {bodies k : Nat} {p : Option Block} {s : Session} (h : Sound bodies k p s)
    (idle : s.isActive = false) : Resting s := by
  obtain ⟨rfl, rfl⟩ := h.idle idle
  exact ⟨idle, h.regions⟩

/-- The operation leaves the state as it is, whether it succeeds or fails. -/
abbrev Idles (act : EStateM ε σ α) (s : σ) : Prop :=
  Yields act s (fun _ s' => s' = s) (fun _ s' => s' = s)

/-- The operation fails and leaves the state as it is. -/
abbrev Fails (act : EStateM ε σ α) (s : σ) : Prop :=
  Yields act s (fun _ _ => False) (fun _ s' => s' = s)

lemma Fails.bind {act : EStateM ε σ α} {f : α → EStateM ε σ β} {s : σ} (h : Fails act s) :
    Fails (act >>= f) s :=
  Yields.bind h fun _ _ impossible => impossible.elim

lemma Fails.idles {act : EStateM ε σ α} {s : σ} (h : Fails act s) : Idles act s :=
  h.mono (fun _ _ impossible => impossible.elim) fun _ _ h => h

lemma Idles.bind {act : EStateM ε σ α} {f : α → EStateM ε σ β} {s : σ} (h : Idles act s)
    (next : ∀ a, Idles (f a) s) : Idles (act >>= f) s := by
  refine Yields.bind h ?_
  rintro a _ rfl
  exact next a

lemma Idles.onSession {act : Session.Action α} {m : Machine} (h : Idles act m.session) :
    Idles (Machine.onSession act) m := by
  cases hs : act m.session with
  | ok a s =>
    obtain rfl := h.of_ok hs
    unfold Idles Yields
    rw [onSession_of_ok hs]
  | error e s =>
    obtain rfl := h.of_error hs
    unfold Idles Yields
    rw [onSession_of_error hs]

lemma Fails.onSession {act : Session.Action α} {m : Machine} (h : Fails act m.session) :
    Fails (Machine.onSession act) m := by
  cases hs : act m.session with
  | ok a s => exact (h.of_ok hs).elim
  | error e s =>
    obtain rfl := h.of_error hs
    unfold Fails Yields
    rw [onSession_of_error hs]

namespace Resting

variable {s : Session}

lemma writeLine (h : Resting s) (text : String) : Fails (Action.ofWriter (Writer.writeLine text)) s := by
  obtain ⟨braces, ⟨indent, _ | sink, depth, lines⟩, regions, scopes⟩ := s
  · exact rfl
  · cases h.idle

lemma takePending (h : Resting s) :
    Yields Action.takePending s (fun taken s' => taken = none ∧ s' = s) (fun _ _ => False) := by
  obtain ⟨braces, writer, regions, scopes⟩ := s
  obtain rfl : regions = .top := h.regions
  exact ⟨rfl, rfl⟩

lemma closeIfPending (h : Resting s) : Idles Action.closeIfPending s := by
  refine Yields.bind (h.takePending.mono (fun _ _ h => h) fun _ _ impossible => impossible.elim) ?_
  rintro _ _ ⟨rfl, rfl⟩
  exact rfl

lemma resolve (s : Session) (template : String) : Idles (Action.resolve template) s :=
  Yields.resolve fun _ => rfl

lemma statement (h : Resting s) (template terminator : String) :
    Idles (Action.statement template terminator) s :=
  h.closeIfPending.bind fun _ => (resolve s template).bind fun _ => (h.writeLine _).idles

lemma openingLines (h : Resting s) (braces : BraceStyle) (header : String) :
    Fails (Action.writeLines (Action.openingLines braces header)) s := by
  cases braces with
  | sameLine => exact (h.writeLine _).bind
  | nextLine => exact (h.writeLine _).bind

lemma openBlock (h : Resting s) (header suffix : String) : Fails (Action.openBlock header suffix) s := by
  have opening : Fails (Action.writeOpening header) s := by
    refine Yields.bind h.closeIfPending ?_
    rintro _ _ rfl
    refine Yields.bind (resolve _ header) ?_
    rintro text _ rfl
    exact .get_bind (h.openingLines _ text).bind
  exact opening.bind

lemma closeBlock (h : Resting s) : Fails Action.closeBlock s := by
  refine Yields.closeBlock h.closeIfPending (fun pending => ?_) fun _ _ same => same
  rw [h.regions] at pending
  cases pending

lemma wrapUp (h : Resting s) : Fails Action.wrapUp s := by
  refine .get_bind ?_
  rw [h.idle]
  exact rfl

lemma rescoped {m : Machine} (h : Resting m.session) (scopes : Template.Scopes) :
    Resting (m.rescoped scopes).session :=
  ⟨h.idle, h.regions⟩

lemma enterBlock {m : Machine} (h : Resting m.session) (header suffix : String) :
    Fails (Machine.enterBlock header suffix) m :=
  Fails.onSession (h.openBlock header suffix).bind

end Resting

mutual

/-- At rest a step that begins no pass leaves the machine as it is. -/
theorem Resting.exec (step : Step) {m : Machine} (h : Resting m.session) (never : step.NeverBegins) :
    Idles step.exec m := by
  cases step with
  | begin target => exact never.elim
  | finish =>
    have finish : Fails Machine.finish m := (Fails.onSession h.wrapUp).bind
    exact finish.bind.idles
  | statement template terminator => exact (h.statement template terminator).onSession.bind fun _ => rfl
  | openBlock header suffix => exact (h.openBlock header suffix).onSession.bind.idles
  | closeBlock => exact h.closeBlock.onSession.bind.idles
  | emptyBlock header => exact (h.enterBlock header "").bind.idles
  | resolve template => exact (Resting.resolve m.session template).onSession.bind fun _ => rfl
  | block header suffix body => exact (h.enterBlock header suffix).bind.idles
  | «scoped» scope body =>
    have inner := Resting.execAll body (h.rescoped (scope :: m.session.scopes)) never
    refine Idles.bind (.inScope inner ?_ ?_) fun _ => rfl
    · rintro _ _ rfl
      rfl
    · rintro _ _ rfl
      rfl
  | attempt body =>
    have tried : Idles (Machine.attempt (Step.execAll body)) m :=
      .attempt (Resting.execAll body h never) fun _ _ same => same
    exact tried.bind fun _ => rfl
  | run body => exact (Resting.execAll body h never).bind fun _ => rfl
  | note text => exact rfl

theorem Resting.execAll (steps : List Step) {m : Machine} (h : Resting m.session)
    (never : Step.NeverBeginsAll steps) : Idles (Step.execAll steps) m := by
  cases steps with
  | nil => exact rfl
  | cons step steps => exact (Resting.exec step h never.1).bind fun _ => Resting.execAll steps h never.2

end

lemma Resting.watch (steps : List Step) {m : Machine} (h : Resting m.session)
    (never : Step.NeverBeginsAll steps) : (m.watch steps).2 = m := by
  induction steps with
  | nil => rfl
  | cons step steps ih =>
    have same : (Machine.outcome step.exec m).2 = m := (Resting.exec step h never.1).outcome
    show ((Machine.outcome step.exec m).2.watch steps).2 = m
    rw [same]
    exact ih never.2

/-- At rest a run that begins no pass enters no block and changes nothing but the live scopes. -/
theorem Resting.passes {steps : List Step} {m state : Machine} {bodies : Nat}
    (p : Passes steps m bodies state) (h : Resting m.session) (never : Step.NeverBeginsAll steps) :
    bodies = 0 ∧ state = m.rescoped state.session.scopes := by
  induction p with
  | here => exact ⟨rfl, rfl⟩
  | later hs _ ih =>
    obtain rfl := (Resting.exec _ h never.1).of_ok hs
    exact ih h never.2
  | failed hs =>
    obtain rfl := (Resting.exec _ h never.1).of_error hs
    exact ⟨rfl, rfl⟩
  | inBlock hb _ _ => exact ((h.enterBlock _ _).of_ok hb).elim
  | inEmptyBlock hb => exact ((h.enterBlock _ _).of_ok hb).elim
  | @inScope scope body steps m m' bodies state hs _ ih =>
    cases hs
    exact ih (h.rescoped (scope :: m.session.scopes)) never.1
  | inAttempt _ ih => exact ih h never.1
  | inRun _ ih => exact ih h never.1

/-! ## Both -/

lemma Machine.sinks_following (m : Machine) (earlier : List Sink) :
    (m.following earlier).sinks = earlier.reverse.map Sink.content ++ m.sinks := by
  unfold sinks following
  rw [List.reverse_append, List.append_assoc, List.map_append]

/-- When a session is between two passes, whatever happened before, its next pass and all that follows it
are seen to do what they do in a fresh session, to the session, the disk and the sinks; and between passes,
wherever in a program that is, nothing is changed and no block is entered until the next begin. -/
theorem reused_as_fresh (options : Options) (disk : Disk) :
    (∀ (history program : List Step) (sink : Sink),
      let state := ((Machine.ofOptions options disk).watch history).2
      let again := state.watch (.begin (.memory sink) :: program)
      let fresh := (Machine.ofOptions options state.disk).watch (.begin (.memory sink) :: program)
      state.session.isActive = false →
      again.1 = fresh.1 ∧ again.2.session = fresh.2.session ∧ again.2.disk = fresh.2.disk ∧
        again.2.output = fresh.2.output ∧ again.2.sinks = state.sinks ++ fresh.2.sinks) ∧
      ∀ (program : List Step) (state : Machine) (bodies : Nat), Reachable options disk bodies state →
        state.session.isActive = false → Step.NeverBeginsAll program →
        (state.watch program).2 = state ∧
          ∀ inner state', Passes program state inner state' →
            inner = 0 ∧ state' = state.rescoped state'.session.scopes := by
  constructor
  · intro history program sink state again fresh idle
    have start : Within options [] (Machine.ofOptions options disk).session := ⟨rfl, rfl⟩
    have within : Within options [] state.session := start.watch history
    have same : again = (fresh.1, fresh.2.following state.released) :=
      watch_begin_following within idle sink program rfl
    rw [same]
    refine ⟨rfl, rfl, rfl, rfl, ?_⟩
    rw [Machine.sinks_following, Machine.sinks_idle idle]
  · intro program state bodies reachable idle never
    obtain ⟨k, p, sound⟩ := Sound.runInvariant.reachable (fun _ => ⟨0, none, .fresh _⟩) reachable
    have resting := sound.resting idle
    exact ⟨resting.watch program never, fun inner state' p => resting.passes p never⟩

/-- A pass that fails inside a block, goes on, and whose sink cannot be flushed. -/
def brokenPass : Program :=
  [.begin (.memory { flushFails := true }), .block "A" "" [.openBlock "B" "", .statement "$missing$" ";"],
    .openBlock "C" "", .finish]

/-- It leaves a level of depth behind, which no later pass sees and which stays until then. -/
theorem reused_as_fresh_brokenPass :
    let state := ((Machine.ofOptions {}).watch brokenPass).2
    let program : List Step := [.statement "x" ";", .finish]
    state.session.isActive = false ∧ state.session.writer.depth = 1 ∧
      (state.watch (.begin (.memory {}) :: program)).1 =
        ((Machine.ofOptions {}).watch (.begin (.memory {}) :: program)).1 ∧
      (state.watch program).2 = state := by
  have idle : ((Machine.ofOptions {}).watch brokenPass).2.session.isActive = false := by cbv
  have depth : ((Machine.ofOptions {}).watch brokenPass).2.session.writer.depth = 1 := by cbv
  have disk : ((Machine.ofOptions {}).watch brokenPass).2.disk = .empty := by cbv
  intro state program
  have again := (reused_as_fresh {} .empty).1 brokenPass program {} idle
  rw [disk] at again
  have reachable : Reachable {} .empty 0 state := ⟨brokenPass, [], .here⟩
  have never : Step.NeverBeginsAll program := ⟨trivial, trivial, trivial⟩
  have rest := (reused_as_fresh {} .empty).2 program state 0 reachable idle never
  exact ⟨idle, depth, again.1, rest.1⟩

end Polyadic.Session
