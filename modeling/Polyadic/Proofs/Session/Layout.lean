import Polyadic.Proofs.Session.Printing
import Polyadic.Proofs.Text.Braces

/-!
# Texts in their layout

What is printed is made of the texts of the items (`Item.texts`) and of the characters of the layout: spaces,
tabs, line feeds and braces. So a property of characters that the layout has carries over from the texts to
the print (`Item.forall_print`), the print of balanced texts is balanced (`Item.balanced_print`), and it ends
with a line feed (`Item.getLast?_printAll`).

`render_eq` brings this to programs: rendering one that emits and fits gives the print of its items.
-/

namespace Polyadic.Session

open Text (Balanced openBraces)

mutual

/-- The texts that stand in an item. -/
def Item.texts : Item → List String
  | .line text => [text]
  | .block header suffix body => header :: suffix :: Item.textsAll body

def Item.textsAll : List Item → List String
  | [] => []
  | item :: items => item.texts ++ Item.textsAll items

end

lemma Item.textsAll_append (items items' : List Item) :
    Item.textsAll (items ++ items') = Item.textsAll items ++ Item.textsAll items' := by
  induction items with
  | nil => rfl
  | cons item items ih => rw [List.cons_append, Item.textsAll, Item.textsAll, ih, List.append_assoc]

/-- The characters that the layout puts around texts. -/
def layoutChars : List Char :=
  [' ', '\t', '\n', '\x7b', '\x7d']

section Line

variable {options : Options} {depth : Nat} {text header suffix : String}

lemma toList_line (options : Options) (depth : Nat) (text : String) :
    (options.line depth text).toList =
      (List.replicate depth options.indent.unit).flatMap String.toList ++ text.toList ++ ['\n'] := by
  rw [Options.line, String.toList_append, String.toList_append, String.toList_join]
  rfl

lemma mem_indentation {options : Options} {depth : Nat} {c : Char}
    (h : c ∈ (List.replicate depth options.indent.unit).flatMap String.toList) : c = ' ' ∨ c = '\t' := by
  have blank : ∀ indent : Indent, ∀ c ∈ indent.unit.toList, c = ' ' ∨ c = '\t' := by
    intro indent
    unfold Indent.unit
    split <;> simp
  obtain ⟨unit, hunit, hc⟩ := List.mem_flatMap.mp h
  rw [List.eq_of_mem_replicate hunit] at hc
  exact blank _ c hc

section Chars

variable {P : Char → Prop}

lemma forall_line (layout : ∀ c ∈ layoutChars, P c) (h : ∀ c ∈ text.toList, P c) :
    ∀ c ∈ (options.line depth text).toList, P c := by
  rw [toList_line]
  intro c hc
  simp only [List.mem_append, List.mem_singleton] at hc
  obtain (hindent | htext) | rfl := hc
  · obtain rfl | rfl := mem_indentation hindent
    · exact layout _ (by decide)
    · exact layout _ (by decide)
  · exact h c htext
  · exact layout _ (by decide)

lemma forall_opening (layout : ∀ c ∈ layoutChars, P c) (h : ∀ c ∈ header.toList, P c) :
    ∀ c ∈ (options.opening depth header).toList, P c := by
  have brace : ∀ c ∈ "\x7b".toList, P c := by
    rw [String.toList_ofList, List.forall_mem_singleton]
    exact layout _ (by decide)
  have behind : ∀ c ∈ " \x7b".toList, P c := by
    rw [String.toList_ofList, List.forall_mem_cons, List.forall_mem_singleton]
    exact ⟨layout _ (by decide), layout _ (by decide)⟩
  unfold Options.opening
  split
  · apply forall_line layout
    split
    · exact brace
    · rw [String.toList_append, List.forall_mem_append]
      exact ⟨h, behind⟩
  · rw [String.toList_append, List.forall_mem_append]
    exact ⟨forall_line layout h, forall_line layout brace⟩

lemma forall_closing (layout : ∀ c ∈ layoutChars, P c) (h : ∀ c ∈ suffix.toList, P c) :
    ∀ c ∈ (options.closing depth suffix).toList, P c := by
  have brace : ∀ c ∈ "\x7d".toList, P c := by
    rw [String.toList_ofList, List.forall_mem_singleton]
    exact layout _ (by decide)
  apply forall_line layout
  rw [String.toList_append, List.forall_mem_append]
  exact ⟨brace, h⟩

mutual

/-- What the layout and the texts have in every character, the print has. -/
theorem Item.forall_print (layout : ∀ c ∈ layoutChars, P c) (item : Item) (options : Options)
    (depth : Nat) (h : ∀ text ∈ item.texts, ∀ c ∈ text.toList, P c) :
    ∀ c ∈ (item.print options depth).toList, P c := by
  cases item with
  | line text =>
    rw [Item.print]
    exact forall_line layout (h text List.mem_cons_self)
  | block header suffix body =>
    rw [Item.texts, List.forall_mem_cons, List.forall_mem_cons] at h
    obtain ⟨hheader, hsuffix, hbody⟩ := h
    rw [Item.print, String.toList_append, String.toList_append, List.forall_mem_append,
      List.forall_mem_append]
    exact ⟨⟨forall_opening layout hheader, Item.forall_printAll layout body options (depth + 1) hbody⟩,
      forall_closing layout hsuffix⟩

theorem Item.forall_printAll (layout : ∀ c ∈ layoutChars, P c) (items : List Item) (options : Options)
    (depth : Nat) (h : ∀ text ∈ Item.textsAll items, ∀ c ∈ text.toList, P c) :
    ∀ c ∈ (Item.printAll options depth items).toList, P c := by
  cases items with
  | nil => exact fun c hc => absurd hc (by rw [Item.printAll]; exact List.not_mem_nil)
  | cons item items =>
    rw [Item.textsAll, List.forall_mem_append] at h
    rw [Item.printAll, String.toList_append, List.forall_mem_append]
    exact ⟨Item.forall_print layout item options depth h.1, Item.forall_printAll layout items options depth h.2⟩

end

end Chars

section Balance

lemma openBraces_line {before after : Nat} (h : openBraces before text.toList = some after) :
    openBraces before (options.line depth text).toList = some after := by
  have indentation : Balanced ((List.replicate depth options.indent.unit).flatMap String.toList) := by
    refine .of_unbraced fun c hc => ?_
    obtain rfl | rfl := mem_indentation hc <;> decide
  rw [toList_line, Text.openBraces_append, Text.openBraces_append, indentation, Option.bind_some, h]
  exact Text.openBraces_other (by decide) (by decide) after []

lemma openBraces_brace (before : Nat) : openBraces before "\x7b".toList = some (before + 1) :=
  Text.openBraces_open before []

/-- A balanced header with its brace behind it opens that one. -/
lemma openBraces_header (h : Balanced header.toList) (before : Nat) :
    openBraces before (if header = "" then "\x7b" else header ++ " \x7b").toList = some (before + 1) := by
  have behind : openBraces before " \x7b".toList = some (before + 1) :=
    (Text.openBraces_other (by decide) (by decide) before ['\x7b']).trans (openBraces_brace before)
  split
  · exact openBraces_brace before
  · rw [String.toList_append, Text.openBraces_append, h before]
    exact behind

lemma openBraces_suffix (h : Balanced suffix.toList) (after : Nat) :
    openBraces (after + 1) ("\x7d" ++ suffix).toList = some after := by
  rw [String.toList_append, Text.openBraces_append]
  have brace : openBraces (after + 1) "\x7d".toList = some after := Text.openBraces_close after []
  rw [brace]
  exact h after

lemma openBraces_opening (h : Balanced header.toList) (before : Nat) :
    openBraces before (options.opening depth header).toList = some (before + 1) := by
  unfold Options.opening
  split
  · exact openBraces_line (openBraces_header h before)
  · rw [String.toList_append, Text.openBraces_append, openBraces_line (h before)]
    exact openBraces_line (openBraces_brace before)

lemma openBraces_closing (h : Balanced suffix.toList) (after : Nat) :
    openBraces (after + 1) (options.closing depth suffix).toList = some after :=
  openBraces_line (openBraces_suffix h after)

mutual

theorem Item.balanced_print (item : Item) (options : Options) (depth : Nat)
    (h : ∀ text ∈ item.texts, Balanced text.toList) : Balanced (item.print options depth).toList := by
  cases item with
  | line text =>
    rw [Item.print]
    exact fun before => openBraces_line (h text List.mem_cons_self before)
  | block header suffix body =>
    rw [Item.texts, List.forall_mem_cons, List.forall_mem_cons] at h
    obtain ⟨hheader, hsuffix, hbody⟩ := h
    rw [Item.print, String.toList_append, String.toList_append]
    exact (Item.balanced_printAll body options (depth + 1) hbody).between (openBraces_opening hheader)
      (openBraces_closing hsuffix)

theorem Item.balanced_printAll (items : List Item) (options : Options) (depth : Nat)
    (h : ∀ text ∈ Item.textsAll items, Balanced text.toList) :
    Balanced (Item.printAll options depth items).toList := by
  cases items with
  | nil =>
    rw [Item.printAll]
    exact fun before => rfl
  | cons item items =>
    rw [Item.textsAll, List.forall_mem_append] at h
    rw [Item.printAll, String.toList_append]
    exact (Item.balanced_print item options depth h.1).append
      (Item.balanced_printAll items options depth h.2)

end

end Balance

lemma getLast?_line : (options.line depth text).toList.getLast? = some '\n' := by
  rw [toList_line, List.getLast?_append]
  rfl

lemma Item.getLast?_print (item : Item) : (item.print options depth).toList.getLast? = some '\n' := by
  cases item with
  | line text =>
    rw [Item.print]
    exact getLast?_line
  | block header suffix body =>
    rw [Item.print, String.toList_append, List.getLast?_append, Options.closing, getLast?_line]
    rfl

theorem Item.getLast?_printAll {items : List Item} (h : items ≠ []) :
    (Item.printAll options depth items).toList.getLast? = some '\n' := by
  induction items with
  | nil => exact absurd rfl h
  | cons item items ih =>
    rw [Item.printAll, String.toList_append, List.getLast?_append]
    cases items with
    | nil =>
      rw [Item.getLast?_print, Item.printAll]
      rfl
    | cons next items =>
      rw [ih (List.cons_ne_nil next items)]
      rfl

end Line

/-! ## Rendering -/

lemma fromUTF8?_toUTF8 (text : String) : String.fromUTF8? text.toUTF8 = some text := by
  unfold String.fromUTF8?
  exact dif_pos text.isValidUTF8

/-- A program that emits and fits is rendered as the print of its items. -/
theorem render_eq (options : Options) {program : Program} (emits : Step.EmitsAll program)
    (fits : Step.FitsAll [] false program) :
    render options program = .ok (Item.printAll options 0 (Step.itemsAll [] program)) := by
  have yields : Yields (Machine.pass {} program) (.ofOptions options)
      (fun out m' => Step.FitsAll [] false program ∧
        out = (@Machine.topLevel (.ofOptions options) {} rfl).holding
          (Item.printAll options 0 (Step.itemsAll [] program)) ∧ Idle [] m'.session)
      (fun _ _ => ¬ Step.FitsAll [] false program) :=
    pass_yields rfl rfl rfl emits
  unfold render
  cases h : Machine.pass {} program (.ofOptions options) with
  | ok out m' =>
    -- The sink starts empty, and what it holds in the end is the text that was written to it.
    obtain ⟨_, rfl, _⟩ := yields.of_ok h
    have content : (@Machine.topLevel (.ofOptions options) {} rfl).holding
        (Item.printAll options 0 (Step.itemsAll [] program)) =
          { content := (Item.printAll options 0 (Step.itemsAll [] program)).toUTF8 } :=
      congrArg ({ content := · : Sink }) ByteArray.empty_append
    simp only [content, fromUTF8?_toUTF8]
  | error e m' => exact absurd fits (yields.of_error h)

end Polyadic.Session
