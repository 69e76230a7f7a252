import Polyadic.Proofs.Session.Layout
import Polyadic.Proofs.Template.Resolved
import Polyadic.Proofs.Template.Supported

/-!
# Tidy programs

A program is tidy when everything it emits is inert: each template becomes inert text in the scopes that are
live at its place, and so are the texts behind statements and blocks. A tidy program can always be rendered,
and what comes out has no dollar sign and balanced braces (`render_tidy`).
-/

namespace Polyadic.Session

open Template (Scopes IsInert Provides Supported)

/-- The template has a meaning in the scopes, and it is inert. -/
def Settles (scopes : Scopes) (template : String) : Prop :=
  ∃ text, Template.resolve scopes template = .ok text ∧ IsInert text

mutual

/-- Within the scopes, the step emits inert texts and leaves the closing of blocks to the session. -/
def Step.Tidy (scopes : Scopes) : Step → Prop
  | .statement template terminator => Settles scopes template ∧ IsInert terminator
  | .openBlock header suffix => Settles scopes header ∧ IsInert suffix
  | .emptyBlock header => Settles scopes header
  | .block header suffix body => Settles scopes header ∧ IsInert suffix ∧ Step.TidyAll scopes body
  | .scoped scope body => Step.TidyAll (scope :: scopes) body
  | .run body => Step.TidyAll scopes body
  | .note _ => True
  | .closeBlock | .begin _ | .finish | .resolve _ | .attempt _ => False

def Step.TidyAll (scopes : Scopes) : List Step → Prop
  | [] => True
  | step :: steps => step.Tidy scopes ∧ Step.TidyAll scopes steps

end

section Settles

variable {scopes : Scopes} {template : String}

lemma meaning_of_plain (plain : '$' ∉ template.toList) : meaning scopes template = template :=
  meaning_of_ok (Template.resolve_of_none (Template.firstPlaceholder?_plain plain))

lemma dollar_not_mem_of_isInert (h : IsInert template) : '$' ∉ template.toList :=
  fun hmem => (Template.ne_of_isInert (h _ hmem)).1 rfl

lemma Settles.of_isInert (h : IsInert template) : Settles scopes template :=
  ⟨template, Template.resolve_of_none (Template.firstPlaceholder?_plain (dollar_not_mem_of_isInert h)), h⟩

lemma Settles.of_supported {known : List String} (provides : Provides scopes known)
    (h : Supported known template.toList) : Settles scopes template :=
  provides.resolves h

/-- A template that is written out in a program is seen to settle by looking through its characters. -/
lemma Settles.of_chars {known : List String} {chars : List Char} (provides : Provides scopes known)
    (written : template = String.ofList chars) (h : Supported.scan known none chars = true) :
    Settles scopes template :=
  .of_supported provides (.of_chars written h)

lemma Settles.resolves (h : Settles scopes template) : Resolves (scopes, template) := by
  obtain ⟨text, resolved, _⟩ := h
  exact ⟨text, resolved⟩

lemma Settles.isInert (h : Settles scopes template) : IsInert (meaning scopes template) := by
  obtain ⟨text, resolved, inert⟩ := h
  rwa [meaning_of_ok resolved]

end Settles

lemma Step.tidyAll_iff {scopes : Scopes} {steps : List Step} :
    Step.TidyAll scopes steps ↔ ∀ step ∈ steps, step.Tidy scopes := by
  induction steps with
  | nil => exact ⟨fun _ => nofun, fun _ => trivial⟩
  | cons step steps ih => rw [Step.TidyAll, ih, List.forall_mem_cons]

lemma Step.tidyAll_append {scopes : Scopes} {steps steps' : List Step} :
    Step.TidyAll scopes (steps ++ steps') ↔ Step.TidyAll scopes steps ∧ Step.TidyAll scopes steps' := by
  rw [Step.tidyAll_iff, Step.tidyAll_iff, Step.tidyAll_iff, List.forall_mem_append]

/-- What a step of a tidy program comes to: it emits, it fits, and the texts of its items are inert. -/
structure Step.IsSettled (scopes : Scopes) (step : Step) : Prop where
  emits : step.Emits
  fits : ∀ pending, step.Fits scopes pending
  inert : ∀ text ∈ Item.textsAll (step.items scopes), IsInert text

structure Step.AreSettled (scopes : Scopes) (steps : List Step) : Prop where
  emits : Step.EmitsAll steps
  fits : ∀ pending, Step.FitsAll scopes pending steps
  inert : ∀ text ∈ Item.textsAll (Step.itemsAll scopes steps), IsInert text

mutual

theorem Step.Tidy.isSettled {scopes : Scopes} {step : Step} (tidy : step.Tidy scopes) :
    step.IsSettled scopes := by
  cases step with
  | statement template terminator =>
    obtain ⟨settles, inert⟩ := tidy
    refine ⟨trivial, fun pending => Step.fits_statement.mpr settles.resolves, ?_⟩
    exact List.forall_mem_singleton.mpr (settles.isInert.append inert)
  | openBlock header suffix =>
    obtain ⟨settles, inert⟩ := tidy
    refine ⟨trivial, fun pending => Step.fits_openBlock.mpr settles.resolves, ?_⟩
    exact List.forall_mem_cons.mpr ⟨settles.isInert, List.forall_mem_singleton.mpr inert⟩
  | emptyBlock header =>
    have settles : Settles scopes header := tidy
    refine ⟨trivial, fun pending => Step.fits_emptyBlock.mpr settles.resolves, ?_⟩
    exact List.forall_mem_cons.mpr ⟨settles.isInert, List.forall_mem_singleton.mpr nofun⟩
  | block header suffix body =>
    obtain ⟨settles, inert, tidy⟩ := tidy
    obtain ⟨emits, fits, inert'⟩ := Step.TidyAll.areSettled tidy
    refine ⟨emits, fun pending => Step.fits_block.mpr ⟨settles.resolves, fits false⟩, ?_⟩
    rw [Step.items, Item.textsAll, Item.texts, Item.textsAll, List.append_nil, List.forall_mem_cons,
      List.forall_mem_cons]
    exact ⟨settles.isInert, inert, inert'⟩
  | «scoped» scope body =>
    obtain ⟨emits, fits, inert⟩ := Step.TidyAll.areSettled tidy
    exact ⟨emits, fits, inert⟩
  | run body =>
    obtain ⟨emits, fits, inert⟩ := Step.TidyAll.areSettled tidy
    exact ⟨emits, fits, inert⟩
  | note text => exact ⟨trivial, fun pending => ⟨nofun, trivial⟩, nofun⟩
  | closeBlock => exact tidy.elim
  | begin target => exact tidy.elim
  | finish => exact tidy.elim
  | resolve template => exact tidy.elim
  | attempt body => exact tidy.elim

theorem Step.TidyAll.areSettled {scopes : Scopes} {steps : List Step} (tidy : Step.TidyAll scopes steps) :
    Step.AreSettled scopes steps := by
  cases steps with
  | nil => exact ⟨trivial, fun pending => ⟨nofun, trivial⟩, nofun⟩
  | cons step steps =>
    obtain ⟨emits, fits, inert⟩ := Step.Tidy.isSettled tidy.1
    obtain ⟨emits', fits', inert'⟩ := Step.TidyAll.areSettled tidy.2
    refine ⟨⟨emits, emits'⟩, fun pending => Step.fitsAll_cons.mpr ⟨fits pending, fits' _⟩, ?_⟩
    rw [Step.itemsAll, Item.textsAll_append]
    exact List.forall_mem_append.mpr ⟨inert, inert'⟩

end

/-- A tidy program is rendered as the print of its items, without dollar signs and with balanced braces. -/
theorem render_tidy (options : Options) {program : Program} (tidy : Step.TidyAll [] program) :
    ∃ content, render options program = .ok content ∧
      content = Item.printAll options 0 (Step.itemsAll [] program) ∧
      '$' ∉ content.toList ∧ Text.hasBalancedBraces content = true := by
  obtain ⟨emits, fits, inert⟩ := tidy.areSettled
  refine ⟨_, render_eq options emits (fits false), rfl, ?_, ?_⟩
  · have free : ∀ text ∈ Item.textsAll (Step.itemsAll [] program), ∀ c ∈ text.toList, c ≠ '$' :=
      fun text htext c hc => (Template.ne_of_isInert (inert text htext c hc)).1
    have layout : ∀ c ∈ layoutChars, c ≠ '$' := by simp [layoutChars]
    exact fun hmem => Item.forall_printAll layout _ options 0 free _ hmem rfl
  · refine Text.hasBalancedBraces_iff.mpr (Item.balanced_printAll _ options 0 fun text htext => ?_)
    refine .of_unbraced fun c hc => ?_
    obtain ⟨_, opening, closing, _⟩ := Template.ne_of_isInert (inert text htext c hc)
    exact ⟨opening, closing⟩

end Polyadic.Session
