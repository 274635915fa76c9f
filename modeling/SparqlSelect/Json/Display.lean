import SparqlSelect.Json.Basic
import SparqlSelect.Number.Shortest
import SparqlSelect.Unicode.Classes

/-!
# Values in messages and fragments

A value is shown in two ways. `Json.display` is what goes into a query or a message: a text as it
is, and anything else in literal notation. `Json.literal` is literal notation: quoted texts, `True`,
`False`, `None`, and brackets around lists and objects.
-/

namespace SparqlSelect

/-- A number in lower-case hexadecimal, filled up with zeros. -/
def hexadecimal (width n : Nat) : List Char :=
  let digits := Nat.toDigits 16 n
  List.replicate (width - digits.length) '0' ++ digits

/-- A character inside quotes: some have a short escape, and the unprintable ones show their code.
-/
def quotedChar (quote c : Char) : List Char :=
  if c == quote || c == '\\' then ['\\', c]
  else if c == '\n' then ['\\', 'n']
  else if c == '\r' then ['\\', 'r']
  else if c == '\t' then ['\\', 't']
  else if isPrintable c then [c]
  else if c.toNat < 0x100 then ['\\', 'x'] ++ hexadecimal 2 c.toNat
  else if c.toNat < 0x10000 then ['\\', 'u'] ++ hexadecimal 4 c.toNat
  else ['\\', 'U'] ++ hexadecimal 8 c.toNat

/-- Single quotes, or double ones around a text that holds single quotes and no double ones. -/
def quoteFor (s : List Char) : Char := if s.contains '\'' && !s.contains '"' then '"' else '\''

/-- A text in quotes. -/
def quoted (text : String) : String :=
  let s := text.toList
  let quote := quoteFor s
  String.ofList (quote :: s.flatMap (quotedChar quote) ++ [quote])

namespace Json

mutual

/-- Literal notation. -/
def literal : Json → String
  | .null => "None"
  | .bool b => if b then "True" else "False"
  | .int n => toString n
  | .float x => x.text
  | .str s => quoted s
  | .arr items => "[" ++ ", ".intercalate (itemLiterals items) ++ "]"
  | .obj members => "\x7b" ++ ", ".intercalate (memberLiterals members) ++ "\x7d"

/-- The items of a list in literal notation. -/
def itemLiterals : List Json → List String
  | [] => []
  | item :: rest => literal item :: itemLiterals rest

/-- The members of an object in literal notation. -/
def memberLiterals : List (String × Json) → List String
  | [] => []
  | (name, value) :: rest => (quoted name ++ ": " ++ literal value) :: memberLiterals rest

end

/-- A text as it is, any other value in literal notation. -/
def display : Json → String
  | .str s => s
  | other => other.literal

/-- The text of a value that may be left out: what does not count as given is the empty text. -/
def displayIfSet (value : Json) : String := if value.isSet then value.display else ""

end Json

end SparqlSelect
