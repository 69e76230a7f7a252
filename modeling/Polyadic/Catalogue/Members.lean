import Polyadic.Session.Program

/-!
# Members of declarations

Pieces that several declarations are made of.
-/

namespace Polyadic.Catalogue

open Session (Step)

/-- A statement that ends with a semicolon. -/
def line (template : String) : Step :=
  .statement template ";"

/-- A block whose closing brace stands alone. -/
def block (header : String) (body : List Step) : Step :=
  .block header "" body

/-- A property or indexer that is declared to be readable. -/
def readable (header : String) : Step :=
  block header [line "get"]

/-- A property or indexer that reads as a value. -/
def getter (header value : String) : Step :=
  block header [block "get" [line s!"return {value}"]]

/-- The statement that gives up with a message. -/
def giveUp (message : String) : Step :=
  line s!"throw new Exception(\"{message}\")"

/-- A property that cannot be read. -/
def unreadable (header message : String) : Step :=
  block header [block "get" [giveUp message]]

/-- The number of keys of a mapping that does not know its keys. -/
def infiniteCount : Step :=
  unreadable "public int Count" "Domain is not finite"

/-- Whether the domain is finite and can be enumerated. -/
def domainProperties (value : String) : List Step :=
  [getter "public bool IsFinite" value, getter "public bool IsNumerable" value]

/-- The enumerators of a mapping that cannot enumerate its keys. -/
def refusedEnumerators : List Step :=
  ["public IEnumerator<IKeyValueTuple<$TKeys$, TValue>> GetEnumerator()",
   "IEnumerator<$Tuple<TKeys>$> IEnumerable<$Tuple<TKeys>$>.GetEnumerator()",
   "IEnumerator IEnumerable.GetEnumerator()"].map fun header =>
    block header [giveUp "Domain is non-numerable"]

end Polyadic.Catalogue
