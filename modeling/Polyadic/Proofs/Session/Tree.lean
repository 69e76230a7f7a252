import Polyadic.Session.Program
import Mathlib

/-!
# What a program prints

The text of a program, without sessions: a program that emits and does nothing else stands for a list of
items, lines and blocks, and the items are printed one after the other, each block with its closing brace
directly behind its body. A block that is opened and not entered is one with an empty body.

`Step.Emits` are the steps meant here. `Step.items` are the items of a step, `Step.templates` the
templates in it, each with the scopes that are live at its place, and `Step.ClosesPending` says that every
explicit close in it meets a block pending in its region.
-/

namespace Polyadic.Session

open Template (Scopes)

/-- A part of an output: a line, or a block around further parts. -/
inductive Item where
  | line (text : String)
  | block (header suffix : String) (body : List Item)

/-- One line: as many units of indentation as it is deep, the text, and a line feed. -/
def Options.line (options : Options) (depth : Nat) (text : String) : String :=
  String.join (List.replicate depth options.indent.unit) ++ text ++ "\n"

/-- The lines that open a block. -/
def Options.opening (options : Options) (depth : Nat) (header : String) : String :=
  match options.braces with
  | .sameLine => options.line depth (if header = "" then "\x7b" else header ++ " \x7b")
  | .nextLine => options.line depth header ++ options.line depth "\x7b"

def Options.closing (options : Options) (depth : Nat) (suffix : String) : String :=
  options.line depth ("\x7d" ++ suffix)

mutual

/-- The text of an item. -/
def Item.print (options : Options) (depth : Nat) : Item → String
  | .line text => options.line depth text
  | .block header suffix body =>
    options.opening depth header ++ Item.printAll options (depth + 1) body ++
      options.closing depth suffix

def Item.printAll (options : Options) (depth : Nat) : List Item → String
  | [] => ""
  | item :: items => item.print options depth ++ Item.printAll options depth items

end

/-- The text that a template stands for. -/
def meaning (scopes : Scopes) (template : String) : String :=
  (Template.resolve scopes template).toOption.getD ""

mutual

/-- The step only emits: it begins and ends no pass, catches no failure and asks for nothing. -/
def Step.Emits : Step → Prop
  | .statement .. | .openBlock .. | .closeBlock | .emptyBlock _ | .note _ => True
  | .block _ _ body => Step.EmitsAll body
  | .scoped _ body => Step.EmitsAll body
  | .run body => Step.EmitsAll body
  | .begin _ | .finish | .resolve _ | .attempt _ => False

def Step.EmitsAll : List Step → Prop
  | [] => True
  | step :: steps => step.Emits ∧ Step.EmitsAll steps

end

mutual

/-- The items of a step within the given scopes. -/
def Step.items (scopes : Scopes) : Step → List Item
  | .statement template terminator => [.line (meaning scopes template ++ terminator)]
  | .openBlock header suffix => [.block (meaning scopes header) suffix []]
  | .emptyBlock header => [.block (meaning scopes header) "" []]
  | .block header suffix body => [.block (meaning scopes header) suffix (Step.itemsAll scopes body)]
  | .scoped scope body => Step.itemsAll (scope :: scopes) body
  | .run body => Step.itemsAll scopes body
  | .closeBlock | .note _ | .begin _ | .finish | .resolve _ | .attempt _ => []

def Step.itemsAll (scopes : Scopes) : List Step → List Item
  | [] => []
  | step :: steps => step.items scopes ++ Step.itemsAll scopes steps

end

mutual

/-- The templates that a step emits, each with the scopes that are live at its place. -/
def Step.templates (scopes : Scopes) : Step → List (Scopes × String)
  | .statement template _ => [(scopes, template)]
  | .openBlock header _ => [(scopes, header)]
  | .emptyBlock header => [(scopes, header)]
  | .block header _ body => (scopes, header) :: Step.templatesAll scopes body
  | .scoped scope body => Step.templatesAll (scope :: scopes) body
  | .run body => Step.templatesAll scopes body
  | .closeBlock | .note _ | .begin _ | .finish | .resolve _ | .attempt _ => []

def Step.templatesAll (scopes : Scopes) : List Step → List (Scopes × String)
  | [] => []
  | step :: steps => step.templates scopes ++ Step.templatesAll scopes steps

end

mutual

/-- Whether a block is pending in the region behind a step, when one was or was not before it. -/
def Step.leavesPending (before : Bool) : Step → Bool
  | .openBlock .. => true
  | .scoped _ body => Step.leavesPendingAll before body
  | .run body => Step.leavesPendingAll before body
  | .note _ => before
  | _ => false

def Step.leavesPendingAll (before : Bool) : List Step → Bool
  | [] => before
  | step :: steps => Step.leavesPendingAll (step.leavesPending before) steps

end

mutual

/-- Every explicit close of a step meets a block that is pending in its region. -/
def Step.ClosesPending (before : Bool) : Step → Prop
  | .closeBlock => before = true
  | .block _ _ body => Step.ClosesPendingAll false body
  | .scoped _ body => Step.ClosesPendingAll before body
  | .run body => Step.ClosesPendingAll before body
  | _ => True

def Step.ClosesPendingAll (before : Bool) : List Step → Prop
  | [] => True
  | step :: steps =>
    step.ClosesPending before ∧ Step.ClosesPendingAll (step.leavesPending before) steps

end

/-- The template has a meaning in the scopes. -/
def Resolves (place : Scopes × String) : Prop :=
  ∃ text, Template.resolve place.1 place.2 = .ok text

/-- Every template of the step resolves at its place, and every explicit close meets a pending block. -/
def Step.Fits (scopes : Scopes) (pending : Bool) (step : Step) : Prop :=
  (∀ place ∈ step.templates scopes, Resolves place) ∧ step.ClosesPending pending

def Step.FitsAll (scopes : Scopes) (pending : Bool) (steps : List Step) : Prop :=
  (∀ place ∈ Step.templatesAll scopes steps, Resolves place) ∧ Step.ClosesPendingAll pending steps

lemma Step.fitsAll_cons {scopes : Scopes} {pending : Bool} {step : Step} {steps : List Step} :
    Step.FitsAll scopes pending (step :: steps) ↔
      step.Fits scopes pending ∧ Step.FitsAll scopes (step.leavesPending pending) steps := by
  simp only [Step.Fits, Step.FitsAll, Step.templatesAll, Step.ClosesPendingAll,
    List.forall_mem_append]
  exact and_and_and_comm

section Fits

variable {scopes : Scopes} {pending : Bool}

lemma Step.fits_statement {template terminator : String} :
    (Step.statement template terminator).Fits scopes pending ↔ Resolves (scopes, template) := by
  simp only [Step.Fits, Step.templates, Step.ClosesPending, List.forall_mem_singleton, and_true]

lemma Step.fits_openBlock {header suffix : String} :
    (Step.openBlock header suffix).Fits scopes pending ↔ Resolves (scopes, header) := by
  simp only [Step.Fits, Step.templates, Step.ClosesPending, List.forall_mem_singleton, and_true]

lemma Step.fits_emptyBlock {header : String} :
    (Step.emptyBlock header).Fits scopes pending ↔ Resolves (scopes, header) := by
  simp only [Step.Fits, Step.templates, Step.ClosesPending, List.forall_mem_singleton, and_true]

lemma Step.fits_closeBlock : Step.closeBlock.Fits scopes pending ↔ pending = true := by
  simp only [Step.Fits, Step.templates, Step.ClosesPending, List.not_mem_nil, false_implies,
    implies_true, true_and]

lemma Step.fits_block {header suffix : String} {body : List Step} :
    (Step.block header suffix body).Fits scopes pending ↔
      Resolves (scopes, header) ∧ Step.FitsAll scopes false body := by
  simp only [Step.Fits, Step.FitsAll, Step.templates, Step.ClosesPending, List.forall_mem_cons,
    and_assoc]

end Fits

lemma Item.printAll_append (options : Options) (depth : Nat) (items items' : List Item) :
    Item.printAll options depth (items ++ items') =
      Item.printAll options depth items ++ Item.printAll options depth items' := by
  induction items with
  | nil => rw [List.nil_append, Item.printAll, String.empty_append]
  | cons item items ih =>
    rw [List.cons_append, Item.printAll, Item.printAll, ih, String.append_assoc]

lemma Item.printAll_singleton (options : Options) (depth : Nat) (item : Item) :
    Item.printAll options depth [item] = item.print options depth := by
  rw [Item.printAll, Item.printAll, String.append_empty]

lemma Step.itemsAll_append (scopes : Scopes) (steps steps' : List Step) :
    Step.itemsAll scopes (steps ++ steps') = Step.itemsAll scopes steps ++ Step.itemsAll scopes steps' := by
  induction steps with
  | nil => rfl
  | cons step steps ih => rw [List.cons_append, Step.itemsAll, Step.itemsAll, ih, List.append_assoc]

lemma meaning_of_ok {scopes : Scopes} {template text : String}
    (h : Template.resolve scopes template = .ok text) : meaning scopes template = text := by
  unfold meaning
  rw [h]
  rfl

end Polyadic.Session
