import Polyadic.Proofs.Catalogue.Tidy
import Polyadic.Proofs.Text.Chars

/-!
# Names that are declared together

Which names of the catalogue must not be the same: the type parameters of a type, its properties, and the
parameters of a member that takes the components of the key, together with what is declared within it
(`declared`). Where names are declared shows in the templates, and the names are read in the texts that the
templates become.
-/

namespace Polyadic.Catalogue

open Session (Step meaning)
open Template (Scopes)

/-! ## Names in a text -/

/-- The name at the end of an entry, without the sign that may stand before it. -/
def entryName (entry : List Char) : List Char :=
  bare ((Text.split (· == ' ') entry).getLast?.getD [])

/-- Brackets around entries. -/
inductive Brackets where
  | angle
  | round
  | square
  deriving DecidableEq

namespace Brackets

def opening : Brackets → Char
  | angle => '<'
  | round => '('
  | square => '['

def closing : Brackets → Char
  | angle => '>'
  | round => ')'
  | square => ']'

/-- The names of the entries between the first opening bracket and the next closing one. -/
def names (brackets : Brackets) (text : List Char) : List (List Char) :=
  let inner := (text.dropWhile (· != brackets.opening)).tail.takeWhile (· != brackets.closing)
  (Text.split (· == ',') inner).map entryName

end Brackets

lemma entryName_append (front rest : List Char) : entryName (front ++ ' ' :: rest) = entryName rest := by
  have last : (Text.split (· == ' ') rest).getLast?.isSome = true := by
    rw [List.getLast?_isSome]
    exact Text.split_ne_nil _ rest
  have apart := Text.split_append (p := (· == ' ')) (beq_self_eq_true ' ') front rest
  rw [entryName, apart, List.getLast?_append, Option.or_of_isSome last]
  rfl

lemma entryName_of_not_mem {word : List Char} (h : ' ' ∉ word) : entryName word = bare word := by
  rw [entryName, Text.split_of_not_mem h]
  rfl

lemma names_of_listed {entries : List String} (nonempty : entries ≠ [])
    (h : ∀ entry ∈ entries, ',' ∉ entry.toList) :
    (Text.split (· == ',') (CompositeKey.listed entries).toList).map entryName =
      entries.map fun entry => entryName entry.toList := by
  induction entries with
  | nil => exact absurd rfl nonempty
  | cons entry entries ih =>
    obtain ⟨hentry, hentries⟩ := List.forall_mem_cons.mp h
    by_cases single : entries = []
    · rw [single, CompositeKey.listed, String.intercalate_singleton, Text.split_of_not_mem hentry]
      rfl
    · have text : (CompositeKey.listed (entry :: entries)).toList =
          entry.toList ++ ',' :: (' ' :: (CompositeKey.listed entries).toList) := by
        rw [CompositeKey.listed, String.intercalate_cons_of_ne_nil single, String.toList_append,
          String.toList_append, List.append_assoc]
        rfl
      -- The blank behind the comma goes with the next entry, whose name it does not change.
      obtain ⟨piece, pieces, hpieces, hsplit⟩ :=
        Text.split_cons_of_neg (p := (· == ',')) (c := ' ') (by decide)
          (CompositeKey.listed entries).toList
      have apart := Text.split_append (p := (· == ',')) (beq_self_eq_true ',') entry.toList
        (' ' :: (CompositeKey.listed entries).toList)
      have next := ih single hentries
      rw [hpieces] at next
      rw [text, apart, Text.split_of_not_mem hentry, hsplit, List.singleton_append, List.map_cons, List.map_cons,
        List.map_cons, ← next, List.map_cons]
      exact congrArg (fun name => _ :: name :: _) (entryName_append [] piece)

lemma Brackets.names_append {brackets : Brackets} {front inner : List Char}
    (hfront : brackets.opening ∉ front) (hinner : brackets.closing ∉ inner) (back : List Char) :
    brackets.names (front ++ brackets.opening :: (inner ++ brackets.closing :: back)) =
      (Text.split (· == ',') inner).map entryName := by
  have before : ∀ c ∈ front, (c != brackets.opening) = true :=
    fun c hc => bne_iff_ne.mpr fun same => hfront (same ▸ hc)
  have within : ∀ c ∈ inner, (c != brackets.closing) = true :=
    fun c hc => bne_iff_ne.mpr fun same => hinner (same ▸ hc)
  rw [names, List.dropWhile_append_of_pos before, List.dropWhile_cons_of_neg (by simp), List.tail_cons,
    List.takeWhile_append_of_pos within, List.takeWhile_cons_of_neg (by simp), List.append_nil]

/-! ## Headers -/

/-- Whether a header declares a type. -/
def declaresType (header : String) : Bool :=
  ["public interface ", "public struct ", "public class ", "protected class "].any fun words =>
    (Text.chars words).isPrefixOf (Text.chars header)

/-- The brackets in which a header has its type parameters, or a member the components of the key and its other
parameters. -/
def declaring? (template : String) : Option Brackets :=
  if declaresType template then
    -- The names behind the colon are used there, not declared.
    if '<' ∈ (Text.chars template).takeWhile (· != ':') then some .angle else none
  else
    [Brackets.round, Brackets.square].find? fun brackets =>
      brackets.opening :: Text.chars "$TKeys keys$" <:+: Text.chars template

/-- Whether a header in a type is one of a property. -/
def declaresProperty (header : String) : Bool :=
  !declaresType header && (Text.chars header).all fun c => c != '(' && c != '['

/-- The name that a statement declares, if it is a type and a name. -/
def localName? (template : String) : Option (List Char) :=
  match Text.split (· == ' ') (Text.chars template) with
  | [type, name] => if type ≠ Text.chars "return" ∧ name.all Char.isAlphanum then some name else none
  | _ => none

/-! ## Steps -/

mutual

/-- The names of the properties among the members of a type. -/
def properties (scopes : Scopes) : Step → List (List Char)
  | .block header _ _ => if declaresProperty header then [entryName (meaning scopes header).toList] else []
  | .scoped scope body => propertiesAll (scope :: scopes) body
  | .run body => propertiesAll scopes body
  | _ => []

def propertiesAll (scopes : Scopes) : List Step → List (List Char)
  | [] => []
  | step :: steps => properties scopes step ++ propertiesAll scopes steps

end

mutual

/-- The names that are declared within a member: locals, and the value that is set. -/
def locals : Step → List (List Char)
  | .statement template _ => (localName? template).toList
  | .block header _ body => (if header = "set" then ["value".toList] else []) ++ localsAll body
  | .scoped _ body => localsAll body
  | .run body => localsAll body
  | _ => []

def localsAll : List Step → List (List Char)
  | [] => []
  | step :: steps => locals step ++ localsAll steps

end

/-- The lists of names that a header declares together with the body behind it. -/
def declaredBy (scopes : Scopes) (header : String) (body : List Step) : List (List (List Char)) :=
  let listed := (declaring? header).map (·.names (meaning scopes header).toList)
  if declaresType header then listed.toList ++ [propertiesAll scopes body]
  else listed.toList.map (· ++ localsAll body)

mutual

/-- The lists of names that a step declares together. Only types have members. -/
def declared (scopes : Scopes) : Step → List (List (List Char))
  | .statement template _ => declaredBy scopes template []
  | .openBlock header _ => declaredBy scopes header []
  | .emptyBlock header => declaredBy scopes header []
  | .block header _ body =>
    declaredBy scopes header body ++ if declaresType header then declaredAll scopes body else []
  | .scoped scope body => declaredAll (scope :: scopes) body
  | .run body => declaredAll scopes body
  | .closeBlock | .note _ | .begin _ | .finish | .resolve _ | .attempt _ => []

def declaredAll (scopes : Scopes) : List Step → List (List (List Char))
  | [] => []
  | step :: steps => declared scopes step ++ declaredAll scopes steps

end

end Polyadic.Catalogue
