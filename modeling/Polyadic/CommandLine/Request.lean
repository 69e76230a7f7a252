import Polyadic.CommandLine.Arguments

/-!
# Requests

What a user asks the program for. Arguments are judged from left to right, and the first that asks for
help or is wrong decides.
-/

namespace Polyadic.CommandLine

/-- A shell for which completions can be written. -/
inductive Shell where
  | bash
  | elvish
  | fish
  | powershell
  | zsh
  deriving DecidableEq, Repr

/-- The shell with a name. -/
def Shell.ofName? : String → Option Shell
  | "bash" => some bash
  | "elvish" => some elvish
  | "fish" => some fish
  | "powershell" => some powershell
  | "zsh" => some zsh
  | _ => none

/-- What to generate. -/
structure Generate where
  /-- The manifest file; the default manifest is used when it does not exist. -/
  config : String := "mapgen.toml"
  /-- The output directory. -/
  output : String := "."
  /-- The least arity, in place of that of the manifest. -/
  min : Option Nat := none
  /-- The greatest arity, in place of that of the manifest. -/
  max : Option Nat := none
  /-- Whether the files are printed instead of written. -/
  dryRun : Bool := false
  deriving DecidableEq, Repr

/-- What the program is asked for. -/
inductive Request where
  | generate (what : Generate)
  /-- To judge a manifest file. -/
  | check (config : String)
  /-- To write a manifest file into a directory. -/
  | init (directory : String) (force : Bool)
  | completions (shell : Shell)
  | help
  | version
  deriving DecidableEq, Repr

/-- The names of the commands. -/
def commandNames : List String :=
  ["generate", "check", "init", "completions", "help"]

/-- A switch that asks for more messages and may be repeated. -/
def verbose : Switch := { word := "verbose", letter := some 'v' }

/-- The switch that asks for help. -/
def helpSwitch : Switch := { word := "help", letter := some 'h' }

/-- The switches before a command. -/
def globalSwitches : List Switch :=
  [verbose, helpSwitch, { word := "version", letter := some 'V' }]

/-- The setting that names the manifest file. -/
def configSetting : Switch := { word := "config", letter := some 'c', takesValue := true }

/-- The switches of the command that generates. -/
def generateSwitches : List Switch :=
  [verbose, helpSwitch, configSetting,
   { word := "output", letter := some 'o', takesValue := true },
   { word := "min", takesValue := true },
   { word := "max", takesValue := true },
   { word := "dry-run" }]

/-- The switches of the command that checks. -/
def checkSwitches : List Switch := [verbose, helpSwitch, configSetting]

/-- The switches of the command that writes a manifest file. -/
def initSwitches : List Switch := [verbose, helpSwitch, { word := "force" }]

/-- The switches of the command that writes completions. -/
def completionsSwitches : List Switch := [verbose, helpSwitch]

/-- A path is any text but the empty one. -/
def path? (text : String) : Option String :=
  if text.isEmpty then none else some text

/-- The number that a text writes in decimal digits, with a sign or without. -/
def integer? (text : String) : Option Int :=
  let natural (digits : List Char) : Option Int :=
    if digits.isEmpty || !digits.all Char.isDigit then none
    else some (digits.foldl (fun value c => 10 * value + (c.toNat - '0'.toNat)) 0 : Nat)
  match text.toList with
  | '-' :: digits => (natural digits).map (- ·)
  | '+' :: digits => natural digits
  | digits => natural digits

/-- The number of one byte that a text writes. -/
def byte? (text : String) : Option Nat :=
  (integer? text).bind fun value => if 0 ≤ value ∧ value < 256 then some value.toNat else none

/-- What comes of arguments. -/
inductive Reading (α : Type) where
  | accepted (value : α)
  /-- Something else than a command is asked for. -/
  | instead (request : Request)
  | rejected

/-- The words of the switches and settings among some items. -/
def words (items : List Item) : List String :=
  items.filterMap fun
    | .switch word => some word
    | .setting word _ => some word
    | _ => none

/-- Puts items one after the other into a value. Only the switch for more messages may come twice. -/
def read (put : α → Item → Option α) : List String → α → List Item → Reading α
  | _, value, [] => .accepted value
  | seen, value, item :: items =>
    match item with
    | .switch "help" => .instead .help
    | .switch "version" => .instead .version
    | .switch "verbose" => read put seen value items
    | item =>
      if (words [item]).any seen.contains then .rejected
      else
        match put value item with
        | none => .rejected
        | some value => read put (words [item] ++ seen) value items

/-- Puts an item into what to generate. -/
def Generate.put (what : Generate) : Item → Option Generate
  | .setting "config" value => do return { what with config := ← path? value }
  | .setting "output" value => do return { what with output := ← path? value }
  | .setting "min" value => do return { what with min := some (← byte? value) }
  | .setting "max" value => do return { what with max := some (← byte? value) }
  | .switch "dry-run" => some { what with dryRun := true }
  | _ => none

/-- The request that a reading of a command's arguments leads to, if any. -/
def Reading.request? (reading : Reading α) (make : α → Option Request) : Option Request :=
  match reading with
  | .accepted value => make value
  | .instead request => some request
  | .rejected => none

/-- The request to generate. -/
def generateRequest? (arguments : List String) : Option Request :=
  (read Generate.put [] {} (items generateSwitches arguments)).request? fun what =>
    some (.generate what)

/-- The request to check. -/
def checkRequest? (arguments : List String) : Option Request :=
  let put (_ : String) : Item → Option String
    | .setting "config" value => path? value
    | _ => none
  (read put [] "mapgen.toml" (items checkSwitches arguments)).request? fun config =>
    some (.check config)

/-- The request to write a manifest file. -/
def initRequest? (arguments : List String) : Option Request :=
  let put (state : Option String × Bool) : Item → Option (Option String × Bool)
    | .switch "force" => some (state.1, true)
    | .operand text => if state.1.isSome then none else (path? text).map (some ·, state.2)
    | _ => none
  (read put [] (none, false) (items initSwitches arguments)).request? fun (directory, force) =>
    some (.init (directory.getD ".") force)

/-- The request to write completions. -/
def completionsRequest? (arguments : List String) : Option Request :=
  let put (shell : Option Shell) : Item → Option (Option Shell)
    | .operand text => if shell.isSome then none else (Shell.ofName? text).map some
    | _ => none
  (read put [] none (items completionsSwitches arguments)).request? fun shell =>
    shell.map .completions

/-- The request for help, on one command at most. -/
def helpRequest? : List String → Option Request
  | [] => some .help
  | [name] => if commandNames.contains name then some .help else none
  | _ => none

/-- The request that a command and its arguments make. -/
def commandRequest? (name : String) (arguments : List String) : Option Request :=
  match name with
  | "generate" => generateRequest? arguments
  | "check" => checkRequest? arguments
  | "init" => initRequest? arguments
  | "completions" => completionsRequest? arguments
  | "help" => helpRequest? arguments
  | _ => none

/-- The request that arguments make; none if they are rejected. -/
def Request.ofArguments? : List String → Option Request
  | [] => none
  | text :: rest =>
    match Form.ofText text with
    | .operand name => commandRequest? name rest
    | .divider => none
    | _ =>
      match read (fun () _ => none) [] () (items globalSwitches [text]) with
      | .accepted () => ofArguments? rest
      | .instead request => some request
      | .rejected => none

end Polyadic.CommandLine
