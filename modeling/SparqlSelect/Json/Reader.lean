import SparqlSelect.Json.Basic
import SparqlSelect.Number.Reader

/-!
# Reading JSON

The grammar is that of JSON with three more numbers, `NaN`, `Infinity` and `-Infinity`. Blanks are
the space, the tab and the line breaks; control characters inside a text have to be escaped.

* `Json.read` — the value of a whole text, or why there is none.
-/

namespace SparqlSelect

/-- Why a text has no JSON value. -/
inductive JsonFault where
  /-- The text is not JSON. -/
  | malformed
  /-- An integer has more than `maxDigits` digits. -/
  | integerTooLong
deriving DecidableEq, Repr

namespace JsonText

/-- The rest after a fixed word. -/
def after? (word : List Char) (s : List Char) : Option (List Char) :=
  if word.isPrefixOf s then some (s.drop word.length) else none

/-- The value of a hexadecimal digit. -/
def hexValue? (c : Char) : Option Nat :=
  if '0' ≤ c ∧ c ≤ '9' then some (c.toNat - '0'.toNat)
  else if 'a' ≤ c ∧ c ≤ 'f' then some (c.toNat - 'a'.toNat + 10)
  else if 'A' ≤ c ∧ c ≤ 'F' then some (c.toNat - 'A'.toNat + 10)
  else none

/-- Four hexadecimal digits. -/
def codeUnit? : List Char → Option (Nat × List Char)
  | a :: b :: c :: d :: rest => do
    let a ← hexValue? a
    let b ← hexValue? b
    let c ← hexValue? c
    let d ← hexValue? d
    some (((a * 16 + b) * 16 + c) * 16 + d, rest)
  | _ => none

/-- The second half of a character above the sixteen-bit range, if it comes next. -/
def lowHalf? (s : List Char) : Option (Nat × List Char) := do
  let rest ← after? ['\\', 'u'] s
  let (unit, rest) ← codeUnit? rest
  if 0xDC00 ≤ unit ∧ unit ≤ 0xDFFF then some (unit, rest) else none

/-- The character of a code unit and, for a first half, of the second half after it; a half that
stands alone is replaced. -/
def characterOf (unit : Nat) (rest : List Char) : Char × List Char :=
  if 0xD800 ≤ unit ∧ unit ≤ 0xDBFF then
    match lowHalf? rest with
    | some (low, rest) => (Char.ofNat (0x10000 + (unit - 0xD800) * 0x400 + (low - 0xDC00)), rest)
    | none => ('\uFFFD', rest)
  else if 0xDC00 ≤ unit ∧ unit ≤ 0xDFFF then ('\uFFFD', rest)
  else (Char.ofNat unit, rest)

/-- An escape after its backslash. -/
def escape? : List Char → Option (Char × List Char)
  | 'u' :: rest => (codeUnit? rest).map fun (unit, rest) => characterOf unit rest
  | 'n' :: rest => some ('\n', rest)
  | 't' :: rest => some ('\t', rest)
  | 'r' :: rest => some ('\r', rest)
  | 'b' :: rest => some ('\x08', rest)
  | 'f' :: rest => some ('\x0c', rest)
  | c :: rest => if c == '"' || c == '\\' || c == '/' then some (c, rest) else none
  | [] => none

/-- The characters of a text after its opening quote and up to its closing one, a step of `fuel` for
each; `done` is what has been read, last first. -/
def characters : Nat → List Char → List Char → Option (String × List Char)
  | 0, _, _ => none
  | _ + 1, _, [] => none
  | fuel + 1, done, c :: rest =>
    if c == '"' then some (String.ofList done.reverse, rest)
    else if c == '\\' then
      match escape? rest with
      | some (e, rest) => characters fuel (e :: done) rest
      | none => none
    else if c.toNat < 0x20 then none
    else characters fuel (c :: done) rest

/-- ASCII digits at the start of a text. -/
def digitRun (s : List Char) : List Char × List Char :=
  (s.takeWhile Char.isDigit, s.dropWhile Char.isDigit)

/-- The number that ASCII digits write. -/
def digitsValue (s : List Char) : Nat := s.foldl (fun n c => n * 10 + (c.toNat - '0'.toNat)) 0

/-- The digits before the point: a zero stands alone. -/
def wholePart? : List Char → Option (List Char × List Char)
  | '0' :: rest => some (['0'], rest)
  | s => match digitRun s with
    | ([], _) => none
    | found => some found

/-- A point and digits, if both are there. -/
def fractionPart : List Char → List Char × List Char
  | '.' :: rest => match digitRun rest with
    | ([], _) => ([], '.' :: rest)
    | found => found
  | s => ([], s)

/-- A letter, a sign and digits, if a letter and digits are there. -/
def exponentPart : List Char → Option Int × List Char
  | [] => (none, [])
  | c :: rest =>
    if c == 'e' || c == 'E' then
      let (negative, digits) := NumberText.sign rest
      match digitRun digits with
      | ([], _) => (none, c :: rest)
      | (ds, rest) => (some (if negative then -digitsValue ds else digitsValue ds), rest)
    else (none, c :: rest)

/-- A number: an integer unless it has a fraction or an exponent. -/
def number (negative : Bool) (s : List Char) : Except JsonFault (Json × List Char) :=
  match wholePart? s with
  | none => .error .malformed
  | some (whole, rest) =>
    let (part, rest) := fractionPart rest
    let (exponent, rest) := exponentPart rest
    match part, exponent with
    | [], none =>
      if maxDigits < whole.length then .error .integerTooLong
      else .ok (.int (if negative then -digitsValue whole else digitsValue whole), rest)
    | _, _ =>
      let digits := digitsValue (whole ++ part)
      .ok (.float (.ofDecimal negative digits (exponent.getD 0 - part.length)), rest)

/-- The words that are values. -/
def words : List (List Char × Json) :=
  [("null".toList, .null), ("true".toList, .bool true), ("false".toList, .bool false),
   ("NaN".toList, .float .nan), ("Infinity".toList, .float (.infinite false)),
   ("-Infinity".toList, .float (.infinite true))]

/-- A word or a number. -/
def atom (s : List Char) : Except JsonFault (Json × List Char) :=
  match words.findSome? fun (word, value) => (after? word s).map fun rest => (value, rest) with
  | some found => .ok found
  | none =>
    match s with
    | '-' :: rest => number true rest
    | _ => number false s

mutual

/-- A value at the start of a text. -/
def value : Nat → List Char → Except JsonFault (Json × List Char)
  | 0, _ => .error .malformed
  | fuel + 1, s =>
    match s with
    | '"' :: rest =>
      match characters fuel [] rest with
      | some (t, rest) => .ok (.str t, rest)
      | none => .error .malformed
    | '[' :: rest =>
      match skipGaps rest with
      | ']' :: rest => .ok (.arr [], rest)
      | rest => do
        let (found, rest) ← items fuel rest
        .ok (.arr found, rest)
    | '{' :: rest =>
      match skipGaps rest with
      | '}' :: rest => .ok (.obj [], rest)
      | rest => do
        let (found, rest) ← members fuel rest
        .ok (Json.ofMembers found, rest)
    | _ => atom s

/-- The items of a list, after its bracket and up to the closing one. -/
def items : Nat → List Char → Except JsonFault (List Json × List Char)
  | 0, _ => .error .malformed
  | fuel + 1, s => do
    let (first, rest) ← value fuel s
    match skipGaps rest with
    | ',' :: rest => do
      let (others, rest) ← items fuel (skipGaps rest)
      .ok (first :: others, rest)
    | ']' :: rest => .ok ([first], rest)
    | _ => .error .malformed

/-- The members of an object, after its brace and up to the closing one. -/
def members : Nat → List Char → Except JsonFault (List (String × Json) × List Char)
  | 0, _ => .error .malformed
  | fuel + 1, s =>
    match s with
    | '"' :: rest =>
      match characters fuel [] rest with
      | none => .error .malformed
      | some (name, rest) =>
        match skipGaps rest with
        | ':' :: rest => do
          let (first, rest) ← value fuel (skipGaps rest)
          match skipGaps rest with
          | ',' :: rest => do
            let (others, rest) ← members fuel (skipGaps rest)
            .ok ((name, first) :: others, rest)
          | '}' :: rest => .ok ([(name, first)], rest)
          | _ => .error .malformed
        | _ => .error .malformed
    | _ => .error .malformed

end

end JsonText

open JsonText in
/-- The value of a whole text. Two steps are spent for each character at most. -/
def Json.read (text : String) : Except JsonFault Json := do
  let s := text.toList
  let (found, rest) ← value (2 * s.length + 2) (skipGaps s)
  if (skipGaps rest).isEmpty then .ok found else .error .malformed

end SparqlSelect
