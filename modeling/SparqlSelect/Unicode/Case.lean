import SparqlSelect.Unicode.CaseTables
import SparqlSelect.Unicode.Classes

/-!
# Upper, lower and title case

The full mappings of Unicode: one letter may become several (`ß` in upper case is `SS`), and a
capital sigma becomes the final form at the end of a word.

* `upperCase`, `lowerCase` — a whole text.
* `capitalize` — the first character in title case and the rest in lower case.
-/

namespace SparqlSelect.Unicode

/-- The image of `n` under ascending shifts, if one of them moves it. -/
def shift (n : Nat) : List Shift → Option Nat
  | [] => none
  | s :: rest =>
    if n < s.first then none
    else if n ≤ s.last && (n - s.first) % s.step == 0 then some (n + s.offset).toNat
    else shift n rest

/-- A mapped character: its own sequence, else its shift, else none. -/
def mapped? (sequences : List (Nat × List Nat)) (shifts : List Shift) (c : Char) :
    Option (List Char) :=
  match sequences.lookup c.toNat with
  | some codes => some (codes.map Char.ofNat)
  | none => (shift c.toNat shifts).map fun n => [Char.ofNat n]

/-- The upper case of one character. -/
def upperOf (c : Char) : List Char := (mapped? upperSequences upperShifts c).getD [c]

/-- The lower case of one character, away from the end of a word. -/
def lowerOf (c : Char) : List Char := (mapped? lowerSequences lowerShifts c).getD [c]

/-- The title case of one character, which for most letters is the upper case. -/
def titleOf (c : Char) : List Char := (mapped? titleSequences titleShifts c).getD (upperOf c)

/-- Whether the first character that is not case-ignorable is cased. -/
def meetsCased : List Char → Bool
  | [] => false
  | c :: rest =>
    if inRanges c.toNat caseIgnorableRanges then meetsCased rest else inRanges c.toNat casedRanges

/-- A capital sigma ends a word if a cased letter comes before it and none follows. -/
def lowerSigma (before after : List Char) : Char :=
  if meetsCased before && !meetsCased after then 'ς' else 'σ'

/-- Lower case of a text; `before` is what has been read, last character first. -/
def lowerAfter (before : List Char) : List Char → List Char
  | [] => []
  | c :: rest =>
    (if c == 'Σ' then [lowerSigma before rest] else lowerOf c) ++ lowerAfter (c :: before) rest

end SparqlSelect.Unicode

namespace SparqlSelect

open Unicode

/-- A text in upper case. -/
def upperCase (s : String) : String := String.ofList (s.toList.flatMap upperOf)

/-- A text in lower case. -/
def lowerCase (s : String) : String := String.ofList (lowerAfter [] s.toList)

/-- The first character in title case, the others in lower case. -/
def capitalize (s : String) : String :=
  match s.toList with
  | [] => ""
  | c :: rest => String.ofList (titleOf c ++ lowerAfter [c] rest)

/-- The first character in upper case, the others as they are. -/
def upperFirst (s : String) : String :=
  match s.toList with
  | [] => ""
  | c :: rest => String.ofList (upperOf c ++ rest)

end SparqlSelect
