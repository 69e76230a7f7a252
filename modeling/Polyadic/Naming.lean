import Polyadic.Text.Blank
import Polyadic.Text.CaseMap
import Polyadic.Text.Split

/-!
# Names from phrases

A phrase is a run of words between white space, underscores and hyphens. It is written as one name
with each word capitalised (for types and properties) or with the first letter small (for
parameters), and a name that is a reserved word of C# is escaped with `@`.
-/

namespace Polyadic.Naming

/-- Whether a character separates words. -/
def isSeparator (c : Char) : Bool :=
  Text.isBlank c || c == '_' || c == '-'

/-- The words of a phrase. -/
def words (phrase : List Char) : List (List Char) :=
  (Text.split isSeparator phrase).filter (!·.isEmpty)

/-- A word with its first character in upper case. -/
def capitalize : List Char → List Char
  | [] => []
  | c :: rest => Text.upper c ++ rest

/-- A name with its first character in lower case. -/
def decapitalize : List Char → List Char
  | [] => []
  | c :: rest => Text.lower c ++ rest

/-- The words of a phrase, each capitalised, written together. -/
def pascalChars (phrase : List Char) : List Char :=
  (words phrase).flatMap capitalize

/-- As `pascalChars`, with the first character of the name in lower case. -/
def camelChars (phrase : List Char) : List Char :=
  decapitalize (pascalChars phrase)

/-- The phrase as the name of a type or property, before escaping. -/
def pascal (phrase : String) : String :=
  String.ofList (pascalChars phrase.toList)

/-- The phrase as the name of a parameter, before escaping. -/
def camel (phrase : String) : String :=
  String.ofList (camelChars phrase.toList)

@[simp] theorem toList_pascal (phrase : String) : (pascal phrase).toList = pascalChars phrase.toList :=
  String.toList_ofList

@[simp] theorem toList_camel (phrase : String) : (camel phrase).toList = camelChars phrase.toList :=
  String.toList_ofList

/-- The reserved words of C#. -/
def reservedWords : List String :=
  ["abstract", "as", "base", "bool", "break", "byte", "case", "catch", "char", "checked",
   "class", "const", "continue", "decimal", "default", "delegate", "do", "double", "else",
   "enum", "event", "explicit", "extern", "false", "finally", "fixed", "float", "for",
   "foreach", "goto", "if", "implicit", "in", "int", "interface", "internal", "is", "lock",
   "long", "namespace", "new", "null", "object", "operator", "out", "override", "params",
   "private", "protected", "public", "readonly", "ref", "return", "sbyte", "sealed", "short",
   "sizeof", "stackalloc", "static", "string", "struct", "switch", "this", "throw", "true",
   "try", "typeof", "uint", "ulong", "unchecked", "unsafe", "ushort", "using", "virtual",
   "void", "volatile", "while"]

/-- Whether a name is a reserved word. -/
def isReservedWord (name : List Char) : Bool :=
  (reservedWords.map String.toList).contains name

/-- The name, escaped when it is a reserved word. -/
def safe (name : String) : String :=
  if isReservedWord name.toList then "@" ++ name else name

/-- The phrase as the name of a type or property. -/
def typeName (phrase : String) : String :=
  safe (pascal phrase)

/-- The phrase as the name of a parameter. -/
def parameterName (phrase : String) : String :=
  safe (camel phrase)

end Polyadic.Naming
