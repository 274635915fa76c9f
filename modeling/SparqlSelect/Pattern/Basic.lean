import SparqlSelect.Unicode.Classes

/-!
# Patterns

The tokens of a query are described by regular patterns over characters. A pattern denotes the set
of texts `Pattern.Matches` relates it to; how a text is tested against it is the subject of
`SparqlSelect.Pattern.Matching`.

* `CharClass` — sets of characters that can be compared for equality.
* `Pattern` — one character of a class, nothing, one after another, either, or any number of times.
-/

namespace SparqlSelect

/-- A set of characters. -/
inductive CharClass where
  | one (c : Char)
  | between (first last : Char)
  | word
  | decimal
  | blank
  | either (a b : CharClass)
  | outside (a : CharClass)
deriving DecidableEq, Repr

namespace CharClass

/-- Whether a character belongs to a class. -/
def contains : CharClass → Char → Bool
  | one a, c => a == c
  | between first last, c => first ≤ c && c ≤ last
  | word, c => isWordPart c
  | decimal, c => isDecimal c
  | blank, c => isBlank c
  | either a b, c => a.contains c || b.contains c
  | outside a, c => !a.contains c

/-- A class with the members of a list besides its own. -/
def plus (a : CharClass) (others : List Char) : CharClass :=
  others.foldl (fun k c => either k (one c)) a

/-- The class of the members of a list and of one more character. -/
def anyOf (first : Char) (others : List Char) : CharClass := (one first).plus others

@[simp] theorem contains_plus (a : CharClass) (others : List Char) (c : Char) :
    (a.plus others).contains c = (a.contains c || others.contains c) := by
  induction others generalizing a with
  | nil => exact (Bool.or_false _).symm
  | cons d rest ih =>
    have hNext : (a.plus (d :: rest)).contains c = ((either a (one d)).plus rest).contains c := rfl
    rw [hNext, ih, contains, contains, List.contains_cons, Bool.or_assoc, Bool.beq_comm]

@[simp] theorem contains_anyOf (first : Char) (others : List Char) (c : Char) :
    (anyOf first others).contains c = (first :: others).contains c := by
  rw [anyOf, contains_plus, contains, List.contains_cons, Bool.beq_comm]

/-- The ASCII letters. -/
def letter : CharClass := either (between 'A' 'Z') (between 'a' 'z')

end CharClass

/-- A regular pattern. -/
inductive Pattern where
  /-- The empty text. -/
  | nothing
  /-- One character of a class. -/
  | chars (k : CharClass)
  /-- A text of one pattern and then a text of another. -/
  | seq (p q : Pattern)
  /-- A text of one of two patterns. -/
  | alt (p q : Pattern)
  /-- Any number of texts of a pattern, one after another. -/
  | many (p : Pattern)
deriving DecidableEq, Repr

namespace Pattern

instance : Append Pattern := ⟨seq⟩

instance : HOr Pattern Pattern Pattern := ⟨alt⟩

/-- One given character. -/
def char (c : Char) : Pattern := chars (.one c)

/-- A given text. -/
def word : List Char → Pattern
  | [] => nothing
  | [c] => char c
  | c :: rest => char c ++ word rest

/-- A text of a pattern, or nothing. -/
def optional (p : Pattern) : Pattern := p ||| nothing

/-- One or more texts of a pattern. -/
def oneOrMore (p : Pattern) : Pattern := p ++ many p

/-- Any white space. -/
def blanks : Pattern := many (chars .blank)

/-- White space, at least one character. -/
def someBlanks : Pattern := oneOrMore (chars .blank)

/-- The texts of a pattern. -/
inductive Matches : Pattern → List Char → Prop where
  | nothing : Matches nothing []
  | chars {k c} : k.contains c = true → Matches (chars k) [c]
  | seq {p q s t} : Matches p s → Matches q t → Matches (seq p q) (s ++ t)
  | left {p q s} : Matches p s → Matches (alt p q) s
  | right {p q s} : Matches q s → Matches (alt p q) s
  | stop {p} : Matches (many p) []
  | more {p s t} : Matches p s → Matches (many p) t → Matches (many p) (s ++ t)

end Pattern

end SparqlSelect
