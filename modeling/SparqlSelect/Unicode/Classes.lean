import SparqlSelect.Unicode.Tables

/-!
# Character classes

Four classes of characters decide what a token, a number and a printed value look like: letters and
digits, decimal digits with their value, white space, and characters that may be shown as they are.
All of them range over the whole of Unicode.

* `isBlank` — white space, which is what `trim` takes off both ends of a text.
* `isGap` — the white space that may separate tokens.
* `isWordPart` — letters, digits and the underscore.
* `decimalValue?` — the digit a character stands for, in whatever script.
* `isPrintable` — everything that a quoted text shows without an escape.
-/

namespace SparqlSelect.Unicode

/-- Membership in a list of ascending ranges; the search ends at the first range past `n`. -/
def inRanges (n : Nat) : List (Nat × Nat) → Bool
  | [] => false
  | (first, last) :: rest => if n < first then false else n ≤ last || inRanges n rest

/-- The distance of `n` from the zero of its block of ten digits. -/
def digitIn (n : Nat) : List Nat → Option Nat
  | [] => none
  | first :: rest =>
    if n < first then none else if n < first + 10 then some (n - first) else digitIn n rest

theorem digitIn_cons {n first : Nat} {rest : List Nat} (low : first ≤ n) (high : n < first + 10) :
    digitIn n (first :: rest) = some (n - first) := by
  rw [digitIn, if_neg (Nat.not_lt.2 low), if_pos high]

end SparqlSelect.Unicode

namespace SparqlSelect

open Unicode

/-- A letter, a digit or another character with a numeric value, in any script. -/
def isAlphanumeric (c : Char) : Bool := inRanges c.toNat alphanumericRanges

/-- What the later characters of a name are made of. -/
def isWordPart (c : Char) : Bool := c == '_' || isAlphanumeric c

/-- The value of a decimal digit of any script. -/
def decimalValue? (c : Char) : Option Nat := digitIn c.toNat decimalZeros

/-- A decimal digit of any script. -/
def isDecimal (c : Char) : Bool := (decimalValue? c).isSome

/-- White space, the information separators included. -/
def isBlank (c : Char) : Bool := inRanges c.toNat blankRanges

/-- Whether a quoted text shows the character as it is. -/
def isPrintable (c : Char) : Bool := !inRanges c.toNat unprintableRanges

/-- The white space that separates tokens: the space, the tab and the two line breaks. -/
def isGap (c : Char) : Bool := c == ' ' || c == '\t' || c == '\n' || c == '\r'

/-- A text after the gaps at its start. -/
def skipGaps (s : List Char) : List Char := s.dropWhile isGap

/-- Drops the characters of a class from both ends. -/
def trimBoth (drop : Char → Bool) (s : List Char) : List Char :=
  ((s.dropWhile drop).reverse.dropWhile drop).reverse

/-- A text without the white space around it. -/
def trim (s : String) : String := String.ofList (trimBoth isBlank s.toList)

/-- An ASCII digit has the value that it is read with. -/
theorem decimalValue?_of_isDigit {c : Char} (h : c.isDigit = true) :
    decimalValue? c = some (c.toNat - '0'.toNat) := by
  simp only [Char.isDigit, Bool.and_eq_true, decide_eq_true_eq] at h
  exact digitIn_cons (UInt32.le_iff_toNat_le.1 h.1)
    (Nat.lt_succ_of_le (UInt32.le_iff_toNat_le.1 h.2))

/-- A text without characters of the class is left as it is. -/
theorem trimBoth_of_none {drop : Char → Bool} {s : List Char} (h : ∀ c ∈ s, drop c = false) :
    trimBoth drop s = s := by
  have keep : ∀ t : List Char, (∀ c ∈ t, drop c = false) → t.dropWhile drop = t := by
    intro t ht
    cases t with
    | nil => rfl
    | cons c t => simp [ht c (by simp)]
  unfold trimBoth
  rw [keep s h, keep _ (by simpa using h), List.reverse_reverse]

end SparqlSelect
