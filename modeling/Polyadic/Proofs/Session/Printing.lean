import Polyadic.Proofs.Session.Tree
import Polyadic.Proofs.Session.Writing

/-!
# Sessions print trees

A pass that emits writes the text of the items of its program. Closing lines come late: a session writes
the closing line of a pending block when the next thing in the region is done. So the text that a step adds
to the output is not the text of its items, but the sum of what is written and what is still owed for the
pending block (`Printed`) grows by exactly that text. This is proved of each operation (`Prints.*_yields`),
then by induction of all steps (`Printed.exec`, `Printed.execAll`), together with the condition for their
success. The main statement is `pass_prints`.
-/

namespace Polyadic.Session

open Template (Scopes)

/-- Where a program prints: the layout, a sink without limit as it was before, the regions around the
current one, and the live scopes. -/
structure Place where
  options : Options
  sink : Sink
  unlimited : sink.capacity = none
  enclosing : Regions
  scopes : Scopes

namespace Place

/-- The place in the body of a block. -/
def inner (place : Place) : Place :=
  { place with enclosing := none :: place.enclosing }

/-- The place within one more scope. -/
def within (place : Place) (scope : Template.Scope) : Place :=
  { place with scopes := scope :: place.scopes }

/-- The sink of the place behind a text. -/
def holding (place : Place) (written : String) : Sink :=
  { place.sink with content := place.sink.content ++ written.toUTF8 }

lemma writeAll_holding (place : Place) (written : String) (texts : List String) :
    (place.holding written).writeAll texts = (true, place.holding (written ++ String.join texts)) := by
  have unlimited : (place.holding written).capacity = none := place.unlimited
  rw [Sink.writeAll_unlimited unlimited]
  simp only [holding, String.toUTF8_eq_toByteArray, String.toByteArray_append, ByteArray.append_assoc]

end Place

/-- The session prints at a place: it is so deep, `pending` is the pending block of the current region, and
`written` is what it has written. -/
structure Prints (place : Place) (depth : Nat) (pending : Option Block) (written : String)
    (s : Session) : Prop where
  braces : s.braces = place.options.braces
  indent : s.writer.indent = place.options.indent
  sink : s.writer.sink = some (place.holding written)
  depth : s.writer.depth = depth
  regions : s.regions = pending :: place.enclosing
  scopes : s.scopes = place.scopes

/-- What is still to be written for the pending block. -/
def Options.owed (options : Options) (depth : Nat) (pending : Option Block) : String :=
  pending.elim "" fun block => options.closing depth block.suffix

lemma join_linePieces (options : Options) (depth : Nat) (text : String) :
    String.join (Writer.linePieces options.indent depth text) = options.line depth text := by
  simp only [Writer.linePieces, Options.line, String.join_append, String.join_cons, String.join_nil,
    String.append_empty, String.append_assoc]

namespace Prints

variable {place : Place} {depth : Nat} {p : Option Block} {written : String} {s : Session}

lemma writeLine_yields (h : Prints place depth p written s) (text : String) :
    Yields (Action.ofWriter (Writer.writeLine text)) s
      (fun _ => Prints place depth p (written ++ place.options.line depth text))
      (fun _ _ => False) := by
  obtain ⟨braces, ⟨indent, sink, depth', lines⟩, regions, scopes⟩ := s
  obtain ⟨rfl, rfl, rfl, rfl, hregions, hscopes⟩ := h
  unfold Yields
  simp only [Action.ofWriter, Writer.writeLine]
  rw [Place.writeAll_holding, join_linePieces]
  exact ⟨rfl, rfl, rfl, rfl, hregions, hscopes⟩

lemma takePending_yields {fail : Error → Session → Prop} (h : Prints place depth p written s) :
    Yields Action.takePending s (fun taken s' => taken = p ∧ Prints place depth none written s')
      fail := by
  unfold Yields Action.takePending
  rw [h.regions]
  exact ⟨rfl, h.braces, h.indent, h.sink, h.depth, rfl, h.scopes⟩

lemma writeClosing_yields (block : Block) (h : Prints place (depth + 1) none written s) :
    Yields (Action.writeClosing block) s
      (fun _ => Prints place depth none (written ++ place.options.closing depth block.suffix))
      (fun _ _ => False) := by
  obtain ⟨braces, ⟨indent, sink, depth', lines⟩, regions, scopes⟩ := s
  obtain ⟨rfl, rfl, rfl, rfl, rfl, rfl⟩ := h
  have raised : Prints place depth none written ⟨place.options.braces, ⟨place.options.indent,
      some (place.holding written), depth, lines⟩, none :: place.enclosing, place.scopes⟩ :=
    ⟨rfl, rfl, rfl, rfl, rfl, rfl⟩
  exact raised.writeLine_yields _

/-- Behind the close of the pending block what was owed for it is written. -/
lemma closeIfPending_yields (h : Prints place (depth + p.toList.length) p written s) :
    Yields Action.closeIfPending s
      (fun _ => Prints place depth none (written ++ place.options.owed depth p))
      (fun _ _ => False) := by
  refine .bind h.takePending_yields ?_
  rintro taken s' ⟨rfl, h'⟩
  cases taken with
  | none =>
    refine .pure ?_
    rwa [Options.owed, Option.elim_none, String.append_empty]
  | some block => exact writeClosing_yields block h'

lemma resolve_yields (h : Prints place depth p written s) (template : String) :
    Yields (Action.resolve template) s
      (fun text s' => s' = s ∧ Resolves (place.scopes, template) ∧
        text = meaning place.scopes template)
      (fun _ _ => ¬ Resolves (place.scopes, template)) := by
  unfold Yields Action.resolve
  rw [h.scopes]
  cases hr : Template.resolve place.scopes template with
  | ok text => exact ⟨rfl, ⟨text, hr⟩, (meaning_of_ok hr).symm⟩
  | error cause =>
    rintro ⟨text, ht⟩
    cases hr.symm.trans ht

lemma statement_yields (h : Prints place (depth + p.toList.length) p written s)
    (template terminator : String) :
    Yields (Action.statement template terminator) s
      (fun _ s' => Resolves (place.scopes, template) ∧
        Prints place depth none (written ++ place.options.owed depth p ++
          place.options.line depth (meaning place.scopes template ++ terminator)) s')
      (fun _ _ => ¬ Resolves (place.scopes, template)) := by
  refine .bind (h.closeIfPending_yields.mono (fun _ _ h => h) (fun _ _ h => h.elim)) ?_
  intro _ s₁ h₁
  refine .bind (h₁.resolve_yields template) ?_
  rintro _ s₂ ⟨rfl, resolves, rfl⟩
  exact (h₁.writeLine_yields _).mono (fun _ _ h => ⟨resolves, h⟩) (fun _ _ h => h.elim)

lemma openingLines_yields (h : Prints place depth p written s) (header : String) :
    Yields (Action.writeLines (Action.openingLines s.braces header)) s
      (fun _ => Prints place depth p (written ++ place.options.opening depth header))
      (fun _ _ => False) := by
  rw [h.braces]
  unfold Action.openingLines Options.opening
  cases place.options.braces with
  | sameLine =>
    refine .bind (h.writeLine_yields _) fun _ s' h' => .pure ?_
    simpa only [String.isEmpty_iff] using h'
  | nextLine =>
    refine .bind (h.writeLine_yields _) fun _ s₁ h₁ => ?_
    refine .bind (h₁.writeLine_yields _) fun _ s₂ h₂ => .pure ?_
    rwa [String.append_assoc] at h₂

/-- After the opening of a block was written, the session is one level deeper. -/
lemma writeOpening_yields (h : Prints place (depth + p.toList.length) p written s)
    (template : String) :
    Yields (Action.writeOpening template) s
      (fun header s' => Resolves (place.scopes, template) ∧ header = meaning place.scopes template ∧
        Prints place (depth + 1) none (written ++ place.options.owed depth p ++
          place.options.opening depth header) s')
      (fun _ _ => ¬ Resolves (place.scopes, template)) := by
  refine .bind (h.closeIfPending_yields.mono (fun _ _ h => h) (fun _ _ h => h.elim)) ?_
  intro _ s₁ h₁
  refine .bind (h₁.resolve_yields template) ?_
  rintro header s₂ ⟨rfl, resolves, hheader⟩
  refine .get_bind ?_
  refine .bind ((h₁.openingLines_yields header).mono (fun _ _ h => h) (fun _ _ h => h.elim)) ?_
  intro _ s₃ h₃
  exact ⟨resolves, hheader, h₃.braces, h₃.indent, h₃.sink, congrArg (· + 1) h₃.depth, h₃.regions,
    h₃.scopes⟩

/-- An opened block is pending: its opening is written, its closing line is owed. -/
lemma openBlock_yields (h : Prints place (depth + p.toList.length) p written s)
    (header suffix : String) :
    Yields (Action.openBlock header suffix) s
      (fun _ s' => Resolves (place.scopes, header) ∧
        Prints place (depth + 1) (some ⟨meaning place.scopes header, suffix⟩)
          (written ++ place.options.owed depth p ++
            place.options.opening depth (meaning place.scopes header)) s')
      (fun _ _ => ¬ Resolves (place.scopes, header)) := by
  refine .bind (h.writeOpening_yields header) ?_
  rintro _ s' ⟨resolves, rfl, h'⟩
  unfold Yields Action.setPending
  rw [h'.regions]
  exact ⟨resolves, h'.braces, h'.indent, h'.sink, h'.depth, rfl, h'.scopes⟩

/-- An entered block is owed no more; its body is printed one level deeper. -/
lemma enter_yields (h : Prints place (depth + p.toList.length) p written s)
    (header suffix : String) :
    Yields (do Action.openBlock header suffix; Action.enter) s
      (fun block s' => Resolves (place.scopes, header) ∧ block.suffix = suffix ∧
        Prints place.inner (depth + 1) none
          (written ++ place.options.owed depth p ++
            place.options.opening depth (meaning place.scopes header)) s')
      (fun _ _ => ¬ Resolves (place.scopes, header)) := by
  refine .bind (h.openBlock_yields header suffix) ?_
  intro _ s₁ ⟨resolves, h₁⟩
  refine .bind h₁.takePending_yields ?_
  rintro _ s₂ ⟨rfl, h₂⟩
  exact ⟨resolves, rfl, h₂.braces, h₂.indent, h₂.sink, h₂.depth,
    congrArg (none :: ·) h₂.regions, h₂.scopes⟩

/-- An explicit close writes what is owed, if anything is. -/
lemma closeBlock_yields (h : Prints place (depth + p.toList.length) p written s) :
    Yields Action.closeBlock s
      (fun _ s' => p.isSome = true ∧
        Prints place depth none (written ++ place.options.owed depth p) s')
      (fun _ _ => ¬ p.isSome = true) := by
  obtain rfl : s.regions.pending = p := by
    rw [h.regions]
    rfl
  refine (h.closeIfPending_yields.mono (fun _ _ h => h) fun _ _ h => h.elim).closeBlock
    (fun some _ h' => ⟨some, h'⟩) fun none _ _ => ?_
  rw [none]
  exact Bool.false_ne_true

lemma abandon_yields {fail : Error → Session → Prop} (block : Block)
    (h : Prints place.inner depth p written s) :
    Yields (Action.abandon block) s (fun _ => Prints place depth none written) fail := by
  unfold Yields Action.abandon
  rw [h.regions]
  exact ⟨h.braces, h.indent, h.sink, h.depth, rfl, h.scopes⟩

lemma complete_yields (block : Block)
    (h : Prints place.inner (depth + 1 + p.toList.length) p written s) :
    Yields (Action.complete block) s
      (fun _ => Prints place depth none (written ++ place.options.owed (depth + 1) p ++
        place.options.closing depth block.suffix))
      (fun _ _ => False) := by
  refine .bind h.closeIfPending_yields ?_
  intro _ s₁ h₁
  exact .bind (h₁.abandon_yields block) fun _ s₂ h₂ => writeClosing_yields block h₂

end Prints

/-- At a place of the given depth the session has printed `text`, what is owed for a pending block
included. -/
def Printed (place : Place) (depth : Nat) (pending : Bool) (text : String) (s : Session) : Prop :=
  ∃ p written, Prints place (depth + p.toList.length) p written s ∧ p.isSome = pending ∧
    written ++ place.options.owed depth p = text

namespace Printed

variable {place : Place} {depth : Nat} {pending : Bool} {text : String} {s : Session}

lemma of_prints (h : Prints place depth none text s) : Printed place depth false text s :=
  ⟨none, text, h, rfl, String.append_empty⟩

lemma pushScope (h : Printed place depth pending text s) (scope : Template.Scope) :
    Printed (place.within scope) depth pending text { s with scopes := scope :: s.scopes } := by
  obtain ⟨p, written, h, hp, ht⟩ := h
  exact ⟨p, written, ⟨h.braces, h.indent, h.sink, h.depth, h.regions,
    congrArg (scope :: ·) h.scopes⟩, hp, ht⟩

lemma popScope {scope : Template.Scope} (h : Printed (place.within scope) depth pending text s) :
    Printed place depth pending text { s with scopes := s.scopes.tail } := by
  obtain ⟨p, written, h, hp, ht⟩ := h
  exact ⟨p, written, ⟨h.braces, h.indent, h.sink, h.depth, h.regions,
    congrArg List.tail h.scopes⟩, hp, ht⟩

open Machine

variable {m : Machine}

/-- The body of a block, printed one level deeper, with the closing line behind it. -/
lemma inside {body : Machine.Action α} {fits fitsBody : Prop} {items : List Item} (block : Block)
    (header : String) (iff : fits ↔ fitsBody)
    (hbody : Yields body m
      (fun _ m' => fitsBody ∧ ∃ pending, Printed place.inner (depth + 1) pending
        (text ++ place.options.opening depth header ++
          Item.printAll place.options (depth + 1) items) m'.session)
      (fun _ _ => ¬ fitsBody)) :
    Yields (Machine.inside block body) m
      (fun _ m' => fits ∧ Printed place depth false
        (text ++ Item.printAll place.options depth [.block header block.suffix items]) m'.session)
      (fun _ _ => ¬ fits) := by
  rw [propext iff]
  refine .around hbody ?_ ?_
  · rintro a m' ⟨fits, pending, p, written, h, _, ht⟩
    refine (Prints.complete_yields block h).onSession.mono ?_ (fun _ _ h => h.elim)
    intro _ m'' h'
    refine ⟨fits, ?_⟩
    have same : place.inner.options = place.options := rfl
    rw [same] at ht
    rw [ht] at h'
    rw [Item.printAll_singleton, Item.print, ← String.append_assoc, ← String.append_assoc]
    exact .of_prints h'
  · exact fun e m' hn => .intro (fun _ _ _ => hn) (fun _ _ _ => hn)

mutual

/-- A step that emits succeeds if it fits, and prints its items then. -/
theorem exec (step : Step) (emits : step.Emits) (place : Place) (depth : Nat) (pending : Bool)
    (text : String) (m : Machine) (h : Printed place depth pending text m.session) :
    Yields step.exec m
      (fun _ m' => step.Fits place.scopes pending ∧
        Printed place depth (step.leavesPending pending)
          (text ++ Item.printAll place.options depth (step.items place.scopes)) m'.session)
      (fun _ _ => ¬ step.Fits place.scopes pending) := by
  cases step with
  | begin target => exact False.elim emits
  | finish => exact False.elim emits
  | statement template terminator =>
    obtain ⟨p, written, h, _, rfl⟩ := h
    rw [Step.fits_statement, Step.items, Item.printAll_singleton]
    refine .bind (h.statement_yields template terminator).onSession fun _ m' h' => ?_
    exact ⟨h'.1, .of_prints h'.2⟩
  | openBlock header suffix =>
    obtain ⟨p, written, h, _, rfl⟩ := h
    rw [Step.fits_openBlock, Step.items, Item.printAll_singleton, Item.print, Item.printAll,
      String.append_empty, ← String.append_assoc]
    refine .bind (h.openBlock_yields header suffix).onSession fun _ m' h' => ?_
    exact ⟨h'.1, some ⟨_, suffix⟩, _, h'.2, rfl, rfl⟩
  | closeBlock =>
    obtain ⟨p, written, h, rfl, rfl⟩ := h
    rw [Step.fits_closeBlock, Step.items, Item.printAll, String.append_empty]
    refine .bind h.closeBlock_yields.onSession fun _ m' h' => ?_
    exact ⟨h'.1, .of_prints h'.2⟩
  | emptyBlock header =>
    -- A block around no items: what `inside` asks of the body holds of one that does nothing.
    obtain ⟨p, written, h, _, rfl⟩ := h
    rw [Step.fits_emptyBlock, Step.items]
    refine .bind (h.enter_yields header "").onSession fun block m₁ ⟨resolves, hsuffix, h₁⟩ => ?_
    rw [← hsuffix]
    have body : Yields (pure .done : Machine.Action Answer) m₁ (fun _ m' => True ∧ ∃ pending,
        Printed place.inner (depth + 1) pending (written ++ place.options.owed depth p ++
          place.options.opening depth (meaning place.scopes header) ++
          Item.printAll place.options (depth + 1) []) m'.session) (fun _ _ => ¬ True) := by
      rw [Item.printAll, String.append_empty]
      exact .pure ⟨trivial, false, .of_prints h₁⟩
    exact inside block _ (iff_true_intro resolves) body
  | resolve template => exact False.elim emits
  | block header suffix body =>
    obtain ⟨p, written, h, _, rfl⟩ := h
    rw [Step.fits_block, Step.items]
    refine .bind ((h.enter_yields header suffix).onSession.mono (fun _ _ h => h)
      (fun _ _ hn fits => hn fits.1)) fun block m₁ ⟨resolves, hsuffix, h₁⟩ => ?_
    have printed := execAll body emits place.inner (depth + 1) false _ m₁ (.of_prints h₁)
    rw [← hsuffix]
    exact .bind (inside block _ (and_iff_right resolves)
      (printed.mono (fun _ _ h => ⟨h.1, _, h.2⟩) (fun _ _ hn => hn))) fun _ _ h => h
  | «scoped» scope body =>
    have printed := execAll body emits (place.within scope) depth pending text
      (m.rescoped _) (h.pushScope scope)
    exact .bind (.inScope printed (fun _ _ h => ⟨h.1, h.2.popScope⟩) (fun _ _ hn => hn))
      fun _ _ h => h
  | attempt body => exact False.elim emits
  | run body => exact .bind (execAll body emits place depth pending text m h) fun _ _ h => h
  | note text' =>
    refine ⟨⟨nofun, trivial⟩, ?_⟩
    rw [Step.items, Item.printAll, String.append_empty]
    exact h

/-- Steps that emit succeed if they fit, and print their items then. -/
theorem execAll (steps : List Step) (emits : Step.EmitsAll steps) (place : Place) (depth : Nat)
    (pending : Bool) (text : String) (m : Machine)
    (h : Printed place depth pending text m.session) :
    Yields (Step.execAll steps) m
      (fun _ m' => Step.FitsAll place.scopes pending steps ∧
        Printed place depth (Step.leavesPendingAll pending steps)
          (text ++ Item.printAll place.options depth (Step.itemsAll place.scopes steps)) m'.session)
      (fun _ _ => ¬ Step.FitsAll place.scopes pending steps) := by
  cases steps with
  | nil =>
    refine ⟨⟨nofun, trivial⟩, ?_⟩
    rw [Step.itemsAll, Item.printAll, String.append_empty]
    exact h
  | cons step steps =>
    obtain ⟨emits, rest⟩ := emits
    refine .bind ((exec step emits place depth pending text m h).mono (fun _ _ h => h) ?_) ?_
    · exact fun _ _ hn fits => hn (Step.fitsAll_cons.mp fits).1
    intro answer m' ⟨fits, h'⟩
    refine (execAll steps rest place depth _ _ m' h').mono ?_ ?_
    · intro _ m'' ⟨fits', h''⟩
      rw [String.append_assoc, ← Item.printAll_append] at h''
      exact ⟨Step.fitsAll_cons.mpr ⟨fits, fits'⟩, h''⟩
    · exact fun _ _ hn fits => hn (Step.fitsAll_cons.mp fits).2

end

end Printed

def options (s : Session) : Options :=
  ⟨s.writer.indent, s.braces⟩

/-- The session is between two passes, with the given scopes. -/
structure Idle (scopes : Scopes) (s : Session) : Prop where
  idle : s.isActive = false
  depth : s.writer.depth = 0
  regions : s.regions = .top
  scopes : s.scopes = scopes

namespace Prints

variable {place : Place} {depth : Nat} {p : Option Block} {written : String} {s : Session}

lemma wrapUp_yields (h : Prints place (depth + p.toList.length) p written s)
    (top : place.enclosing = []) :
    Yields Action.wrapUp s
      (fun _ => Prints place depth none (written ++ place.options.owed depth p)) (fun _ _ => False) := by
  have active : s.isActive = true := by
    unfold isActive
    rw [h.sink]
    rfl
  have entered : s.regions.entered = 0 := by
    rw [h.regions, top]
    rfl
  refine .wrapUp (fun idle => ?_) (fun _ => absurd entered) fun _ _ => h.closeIfPending_yields
  cases active.symm.trans idle

lemma detach_yields (h : Prints place depth none written s) (top : place.enclosing = [])
    (flushes : place.sink.flushFails = false) :
    Yields (Action.ofWriter Writer.detach) s
      (fun out s' => out = place.holding written ∧ (depth = 0 → Idle place.scopes s'))
      (fun _ _ => False) := by
  refine .detach (fun idle => ?_) (fun sink held _ => ?_) fun sink held unflushed => ?_
  · rw [isActive, h.sink] at idle
    cases idle
  · cases held.symm.trans h.sink
    exact ⟨rfl, fun left => ⟨rfl, h.depth.trans left, h.regions.trans (congrArg (none :: ·) top), h.scopes⟩⟩
  · cases held.symm.trans h.sink
    cases flushes.symm.trans unflushed

end Prints

open Machine

variable {pending : Bool} {text : String} {m : Machine}

/-- At the top level a pass can be ended, also if blocks left by a failure have kept their levels of depth. -/
lemma Prints.finish_yields {place : Place} {depth : Nat} {p : Option Block} {written : String}
    (h : Prints place (depth + p.toList.length) p written m.session) (top : place.enclosing = [])
    (flushes : place.sink.flushFails = false) :
    Yields Machine.finish m
      (fun out m' => out = place.holding (written ++ place.options.owed depth p) ∧
        (depth = 0 → Idle place.scopes m'.session))
      (fun _ _ => False) := by
  refine .bind (h.wrapUp_yields top).onSession fun _ m₁ h₁ => ?_
  refine .get_bind ?_
  rw [h₁.sink]
  -- The sink is on record as released before it is flushed.
  refine .bind (show Yields _ m₁ (fun _ m₂ => m₂.session = m₁.session) _ from rfl) ?_
  intro _ m₂ same
  rw [← same] at h₁
  refine .bind (h₁.detach_yields top flushes).onSession fun out m₃ h₃ => ?_
  show out = _ ∧ (depth = 0 → Idle place.scopes (store out m₃).session)
  rw [store_session]
  exact h₃

lemma Printed.finish_yields {place : Place} (h : Printed place 0 pending text m.session)
    (top : place.enclosing = []) (flushes : place.sink.flushFails = false) :
    Yields Machine.finish m
      (fun out m' => out = place.holding text ∧ Idle place.scopes m'.session)
      (fun _ _ => False) := by
  obtain ⟨p, written, h, _, rfl⟩ := h
  exact (h.finish_yields top flushes).mono (fun _ _ h => ⟨h.1, h.2 rfl⟩) (fun _ _ h => h)

/-- The top level of a pass from the machine onto the sink. -/
def Machine.topLevel (m : Machine) {sink : Sink} (unlimited : sink.capacity = none) : Place :=
  ⟨m.session.options, sink, unlimited, [], m.session.scopes⟩

/-- Behind the begin of a pass nothing is printed yet. -/
lemma Printed.attach_yields {sink : Sink} (unlimited : sink.capacity = none)
    (idle : m.session.isActive = false) :
    Yields (Action.begin sink) m.session (fun _ => Printed (m.topLevel unlimited) 0 false "")
      (fun _ _ => False) := by
  obtain ⟨⟨braces, ⟨indent, _ | sink', depth, lines⟩, regions, scopes⟩, disk, output, released⟩ := m
  · have empty : sink.content = sink.content ++ "".toUTF8 := ByteArray.append_empty.symm
    have held : sink = { sink with content := sink.content ++ "".toUTF8 } := by rw [← empty]
    exact .of_prints ⟨rfl, rfl, congrArg some held, rfl, rfl, rfl⟩
  · cases idle

lemma Printed.begin_yields {sink : Sink} (unlimited : sink.capacity = none)
    (idle : m.session.isActive = false) :
    Yields (Machine.begin (.memory sink)) m
      (fun _ m' => Printed (m.topLevel unlimited) 0 false "" m'.session) (fun _ _ => False) :=
  .bind (Printed.attach_yields unlimited idle).onSession fun _ _ h => h

/-- A pass that emits fails, or its program fits and it gives back the text of its items. -/
lemma pass_yields {sink : Sink} (unlimited : sink.capacity = none) (flushes : sink.flushFails = false)
    (idle : m.session.isActive = false) {program : Program} (emits : Step.EmitsAll program) :
    Yields (Machine.pass sink program) m
      (fun out m' => Step.FitsAll m.session.scopes false program ∧
        out = (m.topLevel unlimited).holding (Item.printAll m.session.options 0
          (Step.itemsAll m.session.scopes program)) ∧
        Idle m.session.scopes m'.session)
      (fun _ _ => ¬ Step.FitsAll m.session.scopes false program) := by
  have begun := Printed.begin_yields unlimited idle
  refine .bind (begun.mono (fun _ _ h => h) (fun _ _ h => h.elim)) fun _ m₁ h₁ => ?_
  refine .bind (Printed.execAll program emits _ 0 false "" m₁ h₁) fun _ m₂ ⟨fits, h₂⟩ => ?_
  refine (h₂.finish_yields rfl flushes).mono (fun out m₃ h₃ => ?_) (fun _ _ h => h.elim)
  rw [String.empty_append] at h₃
  exact ⟨fits, h₃⟩

/-- A pass that emits onto a sink without limit succeeds when every template in it resolves at its place
and every explicit close meets a block pending in its region. Then the sink has the text of the items of
the program. -/
theorem pass_prints {sink : Sink} (unlimited : sink.capacity = none)
    (flushes : sink.flushFails = false) (idle : m.session.isActive = false) {program : Program}
    (emits : Step.EmitsAll program) :
    ((∃ out m', Machine.pass sink program m = .ok out m') ↔
      (∀ place ∈ Step.templatesAll m.session.scopes program, Resolves place) ∧
        Step.ClosesPendingAll false program) ∧
      ∀ out m', Machine.pass sink program m = .ok out m' →
        out.content = sink.content ++ (Item.printAll m.session.options 0
          (Step.itemsAll m.session.scopes program)).toUTF8 ∧
        Idle m.session.scopes m'.session := by
  have yields := pass_yields unlimited flushes idle emits
  constructor
  · constructor
    · intro ⟨out, m', h⟩
      exact (yields.of_ok h).1
    · intro fits
      cases h : Machine.pass sink program m with
      | ok out m' => exact ⟨out, m', rfl⟩
      | error e m' => exact absurd fits (yields.of_error h)
  · intro out m' h
    obtain ⟨_, rfl, idle⟩ := yields.of_ok h
    exact ⟨rfl, idle⟩

/-- A program in which blocks are closed in all four ways: by the next sibling, explicitly (from outside
the scope in which the block was opened), by the end of the block around them and by the end of the pass. -/
def fourClosings : Program := [
  .openBlock "a" "", .statement "b" ";",
  .scoped (.ofList [("n", "c")]) [.openBlock "$n$" ";"], .closeBlock,
  .block "d" "" [.openBlock "e" ""],
  .openBlock "f" ""]

theorem pass_prints_fourClosings :
    (∃ out m', Machine.pass {} fourClosings (.ofOptions {}) = .ok out m') ∧
      ∀ out m', Machine.pass {} fourClosings (.ofOptions {}) = .ok out m' →
        out.content = ("a \x7b\n\x7d\nb;\nc \x7b\n\x7d;\n" ++
          "d \x7b\n\te \x7b\n\t\x7d\n\x7d\nf \x7b\n\x7d\n").toUTF8 := by
  have emits : Step.EmitsAll fourClosings := by
    simp [fourClosings, Step.EmitsAll, Step.Emits]
  have prints := @pass_prints (.ofOptions {}) {} rfl rfl rfl _ emits
  refine ⟨prints.1.mpr ⟨?_, ?_⟩, fun out m' h => ?_⟩
  · simp only [fourClosings, Step.templatesAll, Step.templates, List.forall_mem_append,
      List.forall_mem_cons]
    have none_left := List.forall_mem_nil Resolves
    exact ⟨⟨⟨"a", by cbv⟩, none_left⟩, ⟨⟨"b", by cbv⟩, none_left⟩,
      ⟨⟨⟨"c", by cbv⟩, none_left⟩, none_left⟩, none_left,
      ⟨⟨"d", by cbv⟩, ⟨⟨"e", by cbv⟩, none_left⟩, none_left⟩, ⟨⟨"f", by cbv⟩, none_left⟩, none_left⟩
  · simp [fourClosings, Step.ClosesPendingAll, Step.ClosesPending, Step.leavesPending,
      Step.leavesPendingAll]
  · rw [(prints.2 out m' h).1]
    cbv

end Polyadic.Session
