import SparqlSelect.Json.Display

/-!
# Writing JSON

The compact form in ASCII: other characters are escaped as sixteen-bit code units.
-/

namespace SparqlSelect.Json

/-- A code unit as an escape. -/
def unitEscape (n : Nat) : List Char := ['\\', 'u'] ++ hexadecimal 4 n

/-- A character inside a JSON text. -/
def writtenChar (c : Char) : List Char :=
  if c == '"' || c == '\\' then ['\\', c]
  else if 0x20 ≤ c.toNat && c.toNat < 0x7F then [c]
  else if c.toNat < 0x10000 then unitEscape c.toNat
  else
    let n := c.toNat - 0x10000
    unitEscape (0xD800 + n / 0x400) ++ unitEscape (0xDC00 + n % 0x400)

/-- A JSON text with its quotes. -/
def writtenText (s : String) : String :=
  String.ofList ('"' :: s.toList.flatMap writtenChar ++ ['"'])

/-- A double; infinities and `nan` have the names by which they are read. -/
def writtenDouble : Binary64 → String
  | .nan => "NaN"
  | .infinite s => if s then "-Infinity" else "Infinity"
  | x => x.text

mutual

/-- The JSON text of a value. -/
def write : Json → String
  | .null => "null"
  | .bool b => if b then "true" else "false"
  | .int n => toString n
  | .float x => writtenDouble x
  | .str s => writtenText s
  | .arr items => "[" ++ ",".intercalate (writeItems items) ++ "]"
  | .obj members => "\x7b" ++ ",".intercalate (writeMembers members) ++ "\x7d"

/-- The items of a list. -/
def writeItems : List Json → List String
  | [] => []
  | item :: rest => write item :: writeItems rest

/-- The members of an object. -/
def writeMembers : List (String × Json) → List String
  | [] => []
  | (name, value) :: rest => (writtenText name ++ ":" ++ write value) :: writeMembers rest

end

end SparqlSelect.Json
