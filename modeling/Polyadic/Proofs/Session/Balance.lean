import Polyadic.Proofs.Session.Layout
import Polyadic.Proofs.Session.Reuse

/-!
# Balanced output

As long as no step of a pass fails, one brace is open in its text for every block that is entered and for the
pending one, whatever the layout and on any sink, when each text that is put on a line is balanced by itself.
This is what every step keeps (`Weighed.exec`, `Weighed.execAll`), and at the end of the pass no brace is open.
The main statement is `pass_balanced`.

An error leaves the blocks around it open, also one that is caught (`Errs` is about these too).
-/

namespace Polyadic.Session

open Template (Scopes)
open Text (Balanced openBraces)

/-- What the template stands for in the scopes, if anything. -/
def resolved (scopes : Scopes) (template : String) : List String :=
  (Template.resolve scopes template).toOption.toList

mutual

/-- The texts that a step brings to its lines: headers, suffixes, and statements with their terminators. -/
def Step.texts (scopes : Scopes) : Step → List String
  | .statement template terminator => (resolved scopes template).map (· ++ terminator)
  | .openBlock header suffix => suffix :: resolved scopes header
  | .emptyBlock header => resolved scopes header
  | .block header suffix body => suffix :: (resolved scopes header ++ Step.textsAll scopes body)
  | .scoped scope body => Step.textsAll (scope :: scopes) body
  | .attempt body => Step.textsAll scopes body
  | .run body => Step.textsAll scopes body
  | .begin _ | .finish | .closeBlock | .resolve _ | .note _ => []

def Step.textsAll (scopes : Scopes) : List Step → List String
  | [] => []
  | step :: steps => step.texts scopes ++ Step.textsAll scopes steps

end

/-- Somewhere in a run of the steps a step fails, whether or not that is caught. -/
inductive Errs : List Step → Machine → Prop where
  | here {step steps m e m'} :
    step.exec m = .error e m' →
    Errs (step :: steps) m
  | later {step steps m answer m'} :
    step.exec m = .ok answer m' →
    Errs steps m' →
    Errs (step :: steps) m
  | inBlock {header suffix body steps m block m'} :
    Machine.enterBlock header suffix m = .ok block m' →
    Errs body m' →
    Errs (.block header suffix body :: steps) m
  | inScope {scope body steps m m'} :
    Machine.onSession (Action.pushScope scope) m = .ok () m' →
    Errs body m' →
    Errs (.scoped scope body :: steps) m
  | inAttempt {body steps m} :
    Errs body m →
    Errs (.attempt body :: steps) m
  | inRun {body steps m} :
    Errs body m →
    Errs (.run body :: steps) m

lemma Errs.of_error {steps : List Step} {m m' : Machine} {e : Error}
    (h : Step.execAll steps m = .error e m') : Errs steps m := by
  induction steps generalizing m with
  | nil => cases h
  | cons step steps ih =>
    cases done : step.exec m with
    | ok answer m₁ =>
      rw [Step.execAll, bind_of_ok done] at h
      exact .later done (ih h)
    | error e' m₁ => exact .here done

section Failing

/-- The operation fails. -/
abbrev Stumbles {ε σ α : Type} (act : EStateM ε σ α) (s : σ) : Prop :=
  Yields act s (fun _ _ => False) (fun _ _ => True)

variable {ε σ α β : Type} {act : EStateM ε σ α} {s s' : σ}

lemma Stumbles.of_error {e : ε} (h : act s = .error e s') : Stumbles act s := by
  unfold Stumbles Yields
  rw [h]
  trivial

lemma Stumbles.bind {f : α → EStateM ε σ β} (h : Stumbles act s) : Stumbles (act >>= f) s :=
  Yields.bind h fun _ _ impossible => impossible.elim

lemma Stumbles.behind {f : α → EStateM ε σ β} {a : α} (done : act s = .ok a s') (h : Stumbles (f a) s') :
    Stumbles (act >>= f) s := by
  unfold Stumbles Yields
  rw [bind_of_ok done]
  exact h

lemma Stumbles.inside {body : Machine.Action α} {m : Machine} (block : Block) (h : Stumbles body m) :
    Stumbles (Machine.inside block body) m :=
  Yields.around h (fun _ _ impossible => impossible.elim)
    fun _ _ _ => .intro (fun _ _ _ => trivial) fun _ _ _ => trivial

lemma Stumbles.inScope {body : Machine.Action α} {m : Machine} {scope : Template.Scope}
    (h : Stumbles body (m.rescoped (scope :: m.session.scopes))) : Stumbles (Machine.inScope scope body) m :=
  Yields.inScope h (fun _ _ impossible => impossible) fun _ _ h => h

end Failing

/-- Without an attempt in it, a run in which a step fails does fail. -/
lemma Errs.stumbles {steps : List Step} {m : Machine} (h : Errs steps m) (emits : Step.EmitsAll steps) :
    Stumbles (Step.execAll steps) m := by
  induction h with
  | here failed => exact (Stumbles.of_error failed).bind
  | later done _ ih => exact .behind done (ih emits.2)
  | @inBlock header suffix body _ _ _ _ entered _ ih =>
    have block : Stumbles (Step.exec (.block header suffix body)) _ :=
      .behind entered ((ih emits.1).inside _).bind
    exact block.bind
  | inScope pushed _ ih =>
    cases pushed
    exact (ih emits.1).inScope.bind.bind
  | inAttempt => exact emits.1.elim
  | inRun _ ih => exact (ih emits.1).bind.bind

/-- In these regions and scopes, the sink has behind its start a text in which so many braces are open. -/
structure Weighs (start : ByteArray) (regions : Regions) (scopes : Scopes) (opened : Nat) (s : Session) :
    Prop where
  regions : s.regions = regions
  scopes : s.scopes = scopes
  content : ∀ sink, s.writer.sink = some sink →
    ∃ text : String, sink.content = start ++ text.toUTF8 ∧ openBraces 0 text.toList = some opened

/-- The closing line of the block, if there is one, closes the brace of the block and no other. -/
def Owes (pending : Option Block) : Prop :=
  ∀ block, pending = some block → Balanced block.suffix.toList

namespace Weighs

variable {start : ByteArray} {regions enclosing : Regions} {scopes : Scopes} {opened : Nat} {p : Option Block}
  {s : Session}

lemma writeLine_yields {after : Nat} {text : String} (h : Weighs start regions scopes opened s)
    (counts : openBraces opened text.toList = some after) :
    Yields (Action.ofWriter (Writer.writeLine text)) s (fun _ => Weighs start regions scopes after)
      (fun _ _ => True) := by
  obtain ⟨braces, ⟨indent, _ | sink, depth, lines⟩, regions', scopes'⟩ := s
  · trivial
  · obtain ⟨rfl, rfl, content⟩ := h
    obtain ⟨written, held, opened⟩ := content sink rfl
    unfold Yields
    simp only [Action.ofWriter, Writer.writeLine]
    rcases line : sink.writeAll (Writer.linePieces indent depth text) with ⟨_ | _, sink'⟩
    · trivial
    · refine ⟨rfl, rfl, ?_⟩
      rintro _ ⟨⟩
      have taken := Sink.writeAll_taken line
      rw [join_linePieces ⟨indent, braces⟩, held, ByteArray.append_assoc] at taken
      refine ⟨written ++ Options.line ⟨indent, braces⟩ depth text, ?_, ?_⟩
      · rw [taken, String.toUTF8_eq_toByteArray, String.toUTF8_eq_toByteArray, String.toUTF8_eq_toByteArray,
          String.toByteArray_append]
      · rw [String.toList_append, Text.openBraces_append, opened]
        exact openBraces_line counts

lemma takePending_yields {fail : Error → Session → Prop} (h : Weighs start (p :: enclosing) scopes opened s) :
    Yields Action.takePending s
      (fun taken s' => taken = p ∧ Weighs start (none :: enclosing) scopes opened s') fail := by
  unfold Yields Action.takePending
  rw [h.regions]
  exact ⟨rfl, rfl, h.scopes, h.content⟩

lemma writeClosing_yields {block : Block} (h : Weighs start regions scopes (opened + 1) s)
    (balanced : Balanced block.suffix.toList) :
    Yields (Action.writeClosing block) s (fun _ => Weighs start regions scopes opened) (fun _ _ => True) := by
  have dedented : Yields (Action.ofWriter (Writer.dedent s!"block '{block.header}'")) s
      (fun _ => Weighs start regions scopes (opened + 1)) (fun _ _ => True) := by
    obtain ⟨braces, ⟨indent, sink, _ | depth, lines⟩, regions', scopes'⟩ := s
    · trivial
    · exact ⟨h.regions, h.scopes, h.content⟩
  exact .bind dedented fun _ s' h' => h'.writeLine_yields (openBraces_suffix balanced opened)

lemma closeIfPending_yields (h : Weighs start (p :: enclosing) scopes (opened + p.toList.length) s)
    (owes : Owes p) :
    Yields Action.closeIfPending s (fun _ => Weighs start (none :: enclosing) scopes opened)
      (fun _ _ => True) := by
  refine .bind h.takePending_yields ?_
  rintro taken s' ⟨rfl, h'⟩
  cases taken with
  | none => exact h'
  | some block => exact h'.writeClosing_yields (owes block rfl)

lemma closeBlock_yields (h : Weighs start (p :: enclosing) scopes (opened + p.toList.length) s) (owes : Owes p) :
    Yields Action.closeBlock s (fun _ => Weighs start (none :: enclosing) scopes opened)
      (fun _ _ => True) :=
  (h.closeIfPending_yields owes).closeBlock (fun _ _ h' => h') fun _ _ _ => trivial

lemma resolve_yields (h : Weighs start regions scopes opened s) (template : String) :
    Yields (Action.resolve template) s
      (fun text s' => text ∈ resolved scopes template ∧ Weighs start regions scopes opened s')
      (fun _ _ => True) := by
  unfold Yields Action.resolve resolved
  rw [h.scopes]
  cases Template.resolve scopes template with
  | ok text => exact ⟨List.mem_singleton_self text, h⟩
  | error cause => trivial

lemma statement_yields {template terminator : String}
    (h : Weighs start (p :: enclosing) scopes (opened + p.toList.length) s) (owes : Owes p)
    (balanced : ∀ text ∈ (resolved scopes template).map (· ++ terminator), Balanced text.toList) :
    Yields (Action.statement template terminator) s (fun _ => Weighs start (none :: enclosing) scopes opened)
      (fun _ _ => True) := by
  refine .bind (h.closeIfPending_yields owes) fun _ s₁ h₁ => ?_
  refine .bind (h₁.resolve_yields template) fun text s₂ ⟨mem, h₂⟩ => ?_
  exact h₂.writeLine_yields (balanced _ (List.mem_map_of_mem mem) opened)

lemma openingLines_yields {header : String} (h : Weighs start regions scopes opened s) (braces : BraceStyle)
    (balanced : Balanced header.toList) :
    Yields (Action.writeLines (Action.openingLines braces header)) s
      (fun _ => Weighs start regions scopes (opened + 1)) (fun _ _ => True) := by
  cases braces with
  | sameLine =>
    refine .bind (h.writeLine_yields ?_) fun _ s' h' => h'
    simp only [String.isEmpty_iff]
    exact openBraces_header balanced opened
  | nextLine =>
    refine .bind (h.writeLine_yields (balanced opened)) fun _ s₁ h₁ => ?_
    exact .bind (h₁.writeLine_yields (openBraces_brace opened)) fun _ s₂ h₂ => h₂

lemma openBlock_yields {header suffix : String}
    (h : Weighs start (p :: enclosing) scopes (opened + p.toList.length) s) (owes : Owes p)
    (balanced : ∀ text ∈ resolved scopes header, Balanced text.toList) :
    Yields (Action.openBlock header suffix) s
      (fun _ s' => ∃ block : Block, block.suffix = suffix ∧
        Weighs start (some block :: enclosing) scopes (opened + 1) s')
      (fun _ _ => True) := by
  have opening : Yields (Action.writeOpening header) s
      (fun _ => Weighs start (none :: enclosing) scopes (opened + 1)) (fun _ _ => True) := by
    refine .bind (h.closeIfPending_yields owes) fun _ s₁ h₁ => ?_
    refine .bind (h₁.resolve_yields header) fun text s₂ ⟨mem, h₂⟩ => ?_
    refine .get_bind ?_
    refine .bind (h₂.openingLines_yields s₂.braces (balanced text mem)) fun _ s₃ h₃ => ?_
    exact ⟨h₃.regions, h₃.scopes, h₃.content⟩
  refine .bind opening fun text s' h' => ?_
  unfold Yields Action.setPending
  rw [h'.regions]
  exact ⟨⟨text, suffix⟩, rfl, rfl, h'.scopes, h'.content⟩

lemma enter_yields {header suffix : String}
    (h : Weighs start (p :: enclosing) scopes (opened + p.toList.length) s) (owes : Owes p)
    (balanced : ∀ text ∈ resolved scopes header, Balanced text.toList) :
    Yields (do Action.openBlock header suffix; Action.enter) s
      (fun block s' => block.suffix = suffix ∧
        Weighs start (none :: none :: enclosing) scopes (opened + 1) s')
      (fun _ _ => True) := by
  refine .bind (h.openBlock_yields owes balanced) fun _ s₁ ⟨block, same, h₁⟩ => ?_
  refine .bind h₁.takePending_yields ?_
  rintro _ s₂ ⟨rfl, h₂⟩
  exact ⟨same, congrArg (none :: ·) h₂.regions, h₂.scopes, h₂.content⟩

lemma complete_yields {block : Block}
    (h : Weighs start (p :: none :: enclosing) scopes (opened + 1 + p.toList.length) s) (owes : Owes p)
    (balanced : Balanced block.suffix.toList) :
    Yields (Action.complete block) s (fun _ => Weighs start (none :: enclosing) scopes opened)
      (fun _ _ => True) := by
  refine .bind (h.closeIfPending_yields owes) fun _ s₁ h₁ => ?_
  have abandoned : Yields (Action.abandon block) s₁
      (fun _ => Weighs start (none :: enclosing) scopes (opened + 1)) (fun _ _ => True) := by
    unfold Yields Action.abandon
    rw [h₁.regions]
    exact ⟨rfl, h₁.scopes, h₁.content⟩
  exact .bind abandoned fun _ s₂ h₂ => h₂.writeClosing_yields balanced

end Weighs

/-- Between the steps of a pass one brace is open for each of the blocks around and for the pending one. -/
def Weighed (start : ByteArray) (enclosing : Regions) (scopes : Scopes) (s : Session) : Prop :=
  ∃ p, Owes p ∧ Weighs start (p :: enclosing) scopes (enclosing.length + p.toList.length) s

namespace Weighed

variable {start : ByteArray} {enclosing : Regions} {scopes : Scopes} {s : Session}

lemma of_weighs (h : Weighs start (none :: enclosing) scopes enclosing.length s) :
    Weighed start enclosing scopes s :=
  ⟨none, nofun, h⟩

lemma pushScope (h : Weighed start enclosing scopes s) (scope : Template.Scope) :
    Weighed start enclosing (scope :: scopes) { s with scopes := scope :: s.scopes } := by
  obtain ⟨p, owes, h⟩ := h
  exact ⟨p, owes, h.regions, congrArg (scope :: ·) h.scopes, h.content⟩

lemma popScope {scope : Template.Scope} (h : Weighed start enclosing (scope :: scopes) s) :
    Weighed start enclosing scopes { s with scopes := s.scopes.tail } := by
  obtain ⟨p, owes, h⟩ := h
  exact ⟨p, owes, h.regions, congrArg List.tail h.scopes, h.content⟩

/-- A pass can be ended only where all braces are closed behind the close of the pending block. -/
lemma finish_yields (h : Weighed start enclosing scopes s) :
    Yields Action.finish s
      (fun out s' => (∃ text : String, out.content = start ++ text.toUTF8 ∧ openBraces 0 text.toList = some 0) ∧
        Weighed start enclosing scopes s')
      (fun _ _ => True) := by
  obtain ⟨p, owes, h⟩ := h
  have wrapped : Yields Action.wrapUp s
      (fun _ s' => enclosing = [] ∧ Weighs start (none :: enclosing) scopes enclosing.length s')
      (fun _ _ => True) := by
    refine .wrapUp (fun _ => trivial) (fun _ _ => trivial) fun _ entered => ?_
    rw [h.regions] at entered
    have top : enclosing = [] := List.length_eq_zero_iff.mp entered
    exact (h.closeIfPending_yields owes).mono (fun _ _ h' => ⟨top, h'⟩) fun _ _ h' => h'
  refine .bind wrapped ?_
  rintro _ s' ⟨top, h'⟩
  rw [top] at h' ⊢
  refine .detach (fun _ => trivial) (fun sink held _ => ⟨h'.content sink held, ?_⟩) fun _ _ _ => trivial
  refine of_weighs ⟨h'.regions, h'.scopes, ?_⟩
  rintro _ ⟨⟩

lemma enter_yields {header suffix : String} (h : Weighed start enclosing scopes s)
    (balanced : ∀ text ∈ resolved scopes header, Balanced text.toList) :
    Yields (do Action.openBlock header suffix; Action.enter) s
      (fun block s' => block.suffix = suffix ∧ Weighed start (none :: enclosing) scopes s')
      (fun _ _ => True) := by
  obtain ⟨p, owes, h⟩ := h
  exact (h.enter_yields owes balanced).mono (fun _ _ h' => ⟨h'.1, of_weighs h'.2⟩) fun _ _ h' => h'

open Machine

variable {m : Machine}

/-- The body of a block, with the way out of it, leaves as many braces open as there were. -/
lemma inside {body : Machine.Action α} {block : Block} (balanced : Balanced block.suffix.toList)
    (hbody : Yields body m (fun _ m' => Weighed start (none :: enclosing) scopes m'.session)
      (fun _ _ => True)) :
    Yields (Machine.inside block body) m (fun _ m' => Weighed start enclosing scopes m'.session)
      (fun _ _ => True) := by
  refine .around hbody ?_ fun _ _ _ => .intro (fun _ _ _ => trivial) (fun _ _ _ => trivial)
  rintro a m' ⟨p, owes, h⟩
  exact (h.complete_yields owes balanced).onSession.mono (fun _ _ h => of_weighs h) (fun _ _ h => h)

mutual

/-- A step in which nothing fails leaves one brace open for each block. -/
theorem exec (step : Step) (steps : List Step) (m : Machine) (unfailing : ¬ Errs (step :: steps) m)
    (enclosing : Regions) (scopes : Scopes) (never : step.NeverBegins)
    (balanced : ∀ text ∈ step.texts scopes, Balanced text.toList)
    (h : Weighed start enclosing scopes m.session) :
    Yields step.exec m (fun _ m' => Weighed start enclosing scopes m'.session) (fun _ _ => True) := by
  cases step with
  | begin target => exact never.elim
  | finish =>
    exact .bind (Yields.finish h.finish_yields) fun _ _ h' => h'.2
  | statement template terminator =>
    obtain ⟨p, owes, h⟩ := h
    exact .bind (h.statement_yields owes balanced).onSession fun _ _ h' => of_weighs h'
  | openBlock header suffix =>
    obtain ⟨p, owes, h⟩ := h
    obtain ⟨hsuffix, hheader⟩ := List.forall_mem_cons.mp balanced
    refine .bind (h.openBlock_yields owes hheader).onSession ?_
    rintro _ m' ⟨block, rfl, h'⟩
    refine ⟨some block, ?_, h'⟩
    rintro _ ⟨⟩
    exact hsuffix
  | closeBlock =>
    obtain ⟨p, owes, h⟩ := h
    exact .bind (h.closeBlock_yields owes).onSession fun _ _ h' => of_weighs h'
  | emptyBlock header =>
    -- A block around a body that does nothing; its suffix is empty.
    refine .bind (h.enter_yields balanced).onSession ?_
    rintro block m₁ ⟨empty, h₁⟩
    refine inside ?_ (.pure h₁)
    rw [empty]
    exact fun depth => rfl
  | resolve template =>
    obtain ⟨p, owes, h⟩ := h
    exact .bind (h.resolve_yields template).onSession fun _ _ h' => ⟨p, owes, h'.2⟩
  | block header suffix body =>
    obtain ⟨hsuffix, rest⟩ := List.forall_mem_cons.mp balanced
    obtain ⟨hheader, hbody⟩ := List.forall_mem_append.mp rest
    refine .bind (h.enter_yields hheader).onSession.with_ok ?_
    rintro block m₁ ⟨entered, rfl, h₁⟩
    have weighed := execAll body m₁ (fun errs => unfailing (.inBlock entered errs)) (none :: enclosing) scopes
      never hbody h₁
    exact .bind (inside hsuffix weighed) fun _ _ h' => h'
  | «scoped» scope body =>
    have pushed : onSession (Action.pushScope scope) m = .ok () (m.rescoped (scope :: m.session.scopes)) :=
      onSession_of_ok rfl
    have weighed := execAll body (m.rescoped _) (fun errs => unfailing (.inScope pushed errs)) enclosing
      (scope :: scopes) never balanced (h.pushScope scope)
    exact .bind (.inScope weighed (fun _ _ h' => h'.popScope) fun _ _ h' => h') fun _ _ h' => h'
  | attempt body =>
    -- The attempt has nothing to catch: what its body failed with would be an error of the run.
    have weighed := execAll body m (fun errs => unfailing (.inAttempt errs)) enclosing scopes never balanced h
    have surely : Yields (Step.execAll body) m (fun _ m' => Weighed start enclosing scopes m'.session)
        (fun _ _ => False) :=
      weighed.with_run.mono (fun _ _ h => h.2) fun _ _ h => unfailing (.inAttempt (.of_error h.1))
    exact .bind (.attempt surely fun _ _ h => h.elim) fun _ _ h' => h'
  | run body =>
    have weighed := execAll body m (fun errs => unfailing (.inRun errs)) enclosing scopes never balanced h
    exact .bind weighed fun _ _ h' => h'
  | note text => exact h

theorem execAll (steps : List Step) (m : Machine) (unfailing : ¬ Errs steps m) (enclosing : Regions)
    (scopes : Scopes) (never : Step.NeverBeginsAll steps)
    (balanced : ∀ text ∈ Step.textsAll scopes steps, Balanced text.toList)
    (h : Weighed start enclosing scopes m.session) :
    Yields (Step.execAll steps) m (fun _ m' => Weighed start enclosing scopes m'.session) (fun _ _ => True) := by
  cases steps with
  | nil => exact h
  | cons step steps =>
    obtain ⟨own, others⟩ := List.forall_mem_append.mp balanced
    refine .bind (exec step steps m unfailing enclosing scopes never.1 own h).with_ok ?_
    intro answer m' ⟨done, h'⟩
    exact execAll steps m' (fun errs => unfailing (.later done errs)) enclosing scopes never.2 others h'

end

/-- Every state that a run passes through is weighed, with the blocks that are around it, if nothing fails. -/
theorem passes {steps : List Step} {state : Machine} {bodies : Nat} (p : Passes steps m bodies state)
    (unfailing : ¬ Errs steps m) (never : Step.NeverBeginsAll steps)
    (balanced : ∀ text ∈ Step.textsAll scopes steps, Balanced text.toList)
    (h : Weighed start enclosing scopes m.session) :
    ∃ enclosing' scopes', Weighed start enclosing' scopes' state.session := by
  induction p generalizing enclosing scopes with
  | here => exact ⟨enclosing, scopes, h⟩
  | later done _ ih =>
    obtain ⟨own, others⟩ := List.forall_mem_append.mp balanced
    have behind := (exec _ _ _ unfailing enclosing scopes never.1 own h).of_ok done
    exact ih (fun errs => unfailing (.later done errs)) never.2 others behind
  | failed failed => exact absurd (.here failed) unfailing
  | inBlock entered _ ih =>
    obtain ⟨_, own⟩ := List.forall_mem_cons.mp (List.forall_mem_append.mp balanced).1
    obtain ⟨hheader, hbody⟩ := List.forall_mem_append.mp own
    have inner := ((h.enter_yields hheader).onSession.of_ok entered).2
    exact ih (fun errs => unfailing (.inBlock entered errs)) never.1 hbody inner
  | inEmptyBlock entered =>
    have own := (List.forall_mem_append.mp balanced).1
    exact ⟨_, _, ((h.enter_yields own).onSession.of_ok entered).2⟩
  | @inScope scope _ _ _ _ _ _ pushed _ ih =>
    have own := (List.forall_mem_append.mp balanced).1
    have unfailing' := fun errs => unfailing (.inScope pushed errs)
    cases pushed
    exact ih unfailing' never.1 own (h.pushScope scope)
  | inAttempt _ ih =>
    have own := (List.forall_mem_append.mp balanced).1
    exact ih (fun errs => unfailing (.inAttempt errs)) never.1 own h
  | inRun _ ih =>
    have own := (List.forall_mem_append.mp balanced).1
    exact ih (fun errs => unfailing (.inRun errs)) never.1 own h

lemma of_begin {target : Target} {begun : Machine} (begins : Machine.begin target m = .ok () begun) :
    Weighed (sinkOf target).content [] m.session.scopes begun.session := by
  obtain ⟨_, session⟩ := session_begin begins
  rw [session]
  refine of_weighs ⟨rfl, rfl, ?_⟩
  rintro _ ⟨⟩
  exact ⟨"", ByteArray.append_empty.symm, rfl⟩

end Weighed

/-- Texts with braces of their own, some of which are closed only by the terminator. -/
def bracedTexts : Program := [
  .scoped (.ofList [("n", "f \x7b\x7d")]) [.openBlock "$n$" " \x7b\x7d"],
  .block "b" ";" [.statement "x = \x7b 1" " \x7d;"]]

/-- What is caught leaves its block open all the same. -/
example : (Machine.outcome (Machine.pass {} [.attempt [.block "a" "" [.statement "$missing$" ";"]]])
    (.ofOptions {})).2.sinks = ["a \x7b\n".toUTF8] := by cbv

end Polyadic.Session
