import SparqlSelect.Number.Binary64
import SparqlSelect.Unicode.Classes

/-!
# Numbers in free text

Numbers that people type: blanks around them, a sign, digits of any script, and single underscores
between digits. An integer is digits only; a double may have a fraction and an exponent, or be an
infinity or `nan` by name.

* `readInteger?` — refuses more than `maxDigits` digits.
* `readDouble?` — the nearest double.
-/

namespace SparqlSelect

/-- The longest integer that is read, in digits. -/
def maxDigits : Nat := 4300

/-- Blanks allowed around a number: the ASCII ones except the separators, and every other one. -/
def isNumberBlank (c : Char) : Bool :=
  if c.toNat < 127 then ['\t', '\n', '\x0b', '\x0c', '\r', ' '].contains c else isBlank c

namespace NumberText

/-- Digits read so far: their value and how many there were. -/
structure Digits where
  value : Nat := 0
  count : Nat := 0
deriving Repr, DecidableEq

/-- The number with one more digit. -/
def Digits.push (ds : Digits) (d : Nat) : Digits := ⟨ds.value * 10 + d, ds.count + 1⟩

/-- Takes digits, each but the first after at most one underscore. -/
def digitsAfter (ds : Digits) : List Char → Digits × List Char
  | [] => (ds, [])
  | c :: rest =>
    match decimalValue? c with
    | some d => digitsAfter (ds.push d) rest
    | none =>
      match c, rest with
      | '_', c' :: rest' =>
        match decimalValue? c' with
        | some d => digitsAfter (ds.push d) rest'
        | none => (ds, c :: rest)
      | _, _ => (ds, c :: rest)

/-- A run of digits that starts with a digit; `none` if there is no digit here. -/
def digits? : List Char → Option (Digits × List Char)
  | [] => none
  | c :: rest => (decimalValue? c).map fun d => digitsAfter (Digits.push {} d) rest

/-- A sign, if there is one: whether it is a minus, and the rest. -/
def sign : List Char → Bool × List Char
  | '-' :: rest => (true, rest)
  | '+' :: rest => (false, rest)
  | s => (false, s)

/-- An exponent with its letter; nothing at the end of the text means zero. -/
def exponent? : List Char → Option Int
  | [] => some 0
  | c :: rest =>
    if c == 'e' || c == 'E' then
      let (negative, rest) := sign rest
      match digits? rest with
      | some (ds, []) => some (if negative then -ds.value else ds.value)
      | _ => none
    else none

/-- The digits of a fraction, which may be missing when there are digits before the point. -/
def fraction? (whole : Option Digits) (s : List Char) : Option (Digits × List Char) :=
  match digits? s, whole with
  | some found, _ => some found
  | none, some _ => some ({}, s)
  | none, none => none

/-- An unsigned decimal with an optional fraction and exponent. -/
def decimal? (negative : Bool) (s : List Char) : Option Binary64 := do
  let (whole, rest) := match digits? s with
    | some (ds, rest) => (some ds, rest)
    | none => (none, s)
  let (part, rest) ← match rest with
    | '.' :: rest => fraction? whole rest
    | rest => whole.map fun _ => (({} : Digits), rest)
  let e ← exponent? rest
  let head := (whole.getD {}).value
  some (.ofDecimal negative (head * tenTo part.count + part.value) (e - part.count))

/-- The names of the doubles that have no digits, in lower case. -/
def named? (negative : Bool) (s : List Char) : Option Binary64 :=
  match String.ofList (s.map Char.toLower) with
  | "inf" | "infinity" => some (.infinite negative)
  | "nan" => some .nan
  | _ => none

end NumberText

open NumberText

/-- An integer typed in a text. -/
def readInteger? (text : String) : Option Int :=
  let (negative, s) := sign (trimBoth isNumberBlank text.toList)
  match digits? s with
  | some (ds, []) =>
    if ds.count ≤ maxDigits then some (if negative then -ds.value else ds.value) else none
  | _ => none

/-- A double typed in a text. -/
def readDouble? (text : String) : Option Binary64 :=
  let (negative, s) := sign (trimBoth isNumberBlank text.toList)
  (named? negative s).orElse fun _ => decimal? negative s

end SparqlSelect
