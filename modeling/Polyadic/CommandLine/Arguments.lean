/-!
# Arguments of a program

Arguments are read from left to right as switches, settings and operands. A switch or setting is
written as a word behind two hyphens or as a letter behind one; letters may be written together.
-/

namespace Polyadic.CommandLine

/-- A switch, or a setting if it takes a value. -/
structure Switch where
  word : String
  letter : Option Char := none
  takesValue : Bool := false
  deriving DecidableEq, Repr

/-- What a part of the arguments says. -/
inductive Item where
  | switch (word : String)
  | setting (word value : String)
  | operand (text : String)
  /-- Something that is no argument of the program. Nothing is read behind it. -/
  | unknown
  deriving DecidableEq, Repr

/-- How an argument is written. -/
inductive Form where
  /-- Two hyphens alone: all that follows are operands. -/
  | divider
  /-- A word, and what stands behind an equals sign if there is one. -/
  | word (text : String) (value : Option String)
  | letters (letters : List Char)
  | operand (text : String)
  deriving DecidableEq, Repr

/-- How an argument is written. A hyphen alone is an operand. -/
def Form.ofText (text : String) : Form :=
  match text.toList with
  | ['-', '-'] => .divider
  | '-' :: '-' :: rest =>
    .word (String.ofList (rest.takeWhile (· != '=')))
      ((rest.dropWhile (· != '=')).tail?.map String.ofList)
  | '-' :: c :: rest => .letters (c :: rest)
  | _ => .operand text

/-- Whether an argument can be the value of the setting in front of it. -/
def isValue (text : String) : Bool :=
  match Form.ofText text with
  | .operand _ => true
  | _ => false

/-- What letters say that are written together. The letter of a setting takes the rest as its value,
with or without an equals sign; if there is no rest, the word of the setting that still needs one is
answered too. -/
def itemsOfLetters (switches : List Switch) : List Char → List Item × Option String
  | [] => ([], none)
  | c :: rest =>
    match switches.find? (·.letter == some c) with
    | none => ([.unknown], none)
    | some switch =>
      if switch.takesValue then
        match rest with
        | [] => ([], some switch.word)
        | '=' :: value => ([.setting switch.word (String.ofList value)], none)
        | value => ([.setting switch.word (String.ofList value)], none)
      else
        let (items, needy) := itemsOfLetters switches rest
        (.switch switch.word :: items, needy)

/-- What a word says, and the word itself if it is that of a setting that still needs a value. -/
def itemsOfWord (switches : List Switch) (word : String) (value : Option String) :
    List Item × Option String :=
  match switches.find? (·.word == word), value with
  | none, _ => ([.unknown], none)
  | some switch, some value =>
    if switch.takesValue then ([.setting switch.word value], none) else ([.unknown], none)
  | some switch, none =>
    if switch.takesValue then ([], some switch.word) else ([.switch switch.word], none)

/-- What arguments say, given the switches there are; `needy` is the setting that the argument in
front of them names, if it still needs a value. -/
def itemsFrom (switches : List Switch) : Option String → List String → List Item
  | none, [] => []
  | some _, [] => [.unknown]
  | some word, value :: rest =>
    if isValue value then .setting word value :: itemsFrom switches none rest else [.unknown]
  | none, text :: rest =>
    match Form.ofText text with
    | .divider => rest.map .operand
    | .operand text => .operand text :: itemsFrom switches none rest
    | .word word value =>
      let (items, needy) := itemsOfWord switches word value
      items ++ itemsFrom switches needy rest
    | .letters letters =>
      let (items, needy) := itemsOfLetters switches letters
      items ++ itemsFrom switches needy rest

/-- What arguments say, given the switches there are. -/
def items (switches : List Switch) (arguments : List String) : List Item :=
  itemsFrom switches none arguments

end Polyadic.CommandLine
