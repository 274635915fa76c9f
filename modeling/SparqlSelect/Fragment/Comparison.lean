import SparqlSelect.Fault
import SparqlSelect.Fragment.Token
import SparqlSelect.Pattern.Matching

/-!
# Comparisons

A comparison is a variable, an operator and a typed text or a number. Comparisons are joined by `&&`
and `||` and grouped by round brackets:

    expression = operand { connective operand }
    operand    = comparison | "(" expression ")"

Blanks may stand before each token and at the end. A token is the longest start of the text that
matches, and a choice is not taken back: the reader looks for no other way to read a text.

The reader goes into each bracket it meets, and there may be a limit to how many it can be in at
once. To meet one bracket more is no mismatch, after which another choice would be tried, but the
end of reading.

* `isComparison` — the text is one comparison.
* `isNestedComparison` — the text is an expression and not just one comparison.
* `nestedWithin` — the same, found out by a reader with a limit.
-/

namespace SparqlSelect.Comparison

open Pattern

/-- The rest of a text after gaps and a token. -/
def token? (p : Pattern) (s : List Char) : Option (List Char) := p.after? (skipGaps s)

/-- The rest after one comparison. -/
def comparison? (s : List Char) : Option (List Char) := do
  let rest ← token? Token.var s
  let rest ← token? Token.comparator rest
  token? (Token.typedText ||| Token.number) rest

/-- What is still to be read: an operand, an expression, or what may follow an operand. -/
inductive Part where
  | operand
  | expression
  | joined
deriving DecidableEq, Repr

/-- Why a part cannot be read. -/
inductive Obstacle where
  /-- What stands there is something else. -/
  | mismatch
  /-- A bracket stands inside too many others. -/
  | depth
deriving DecidableEq, Repr

/-- How many brackets can still be gone into, one inside the other; `none` if there is no limit. -/
abbrev Room := Option Nat

/-- The room inside a bracket. -/
def Room.enter : Room → Except Obstacle Room
  | none => .ok none
  | some 0 => .error .depth
  | some (n + 1) => .ok (some n)

/-- What is left after something that has to be there. -/
def expect : Option (List Char) → Except Obstacle (List Char)
  | some rest => .ok rest
  | none => .error .mismatch

/-- The rest after a part; every token takes at most two steps of `fuel`. -/
def read : Nat → Room → Part → List Char → Except Obstacle (List Char)
  | 0, _, _, _ => .error .mismatch
  | fuel + 1, room, .operand, s =>
    match comparison? s with
    | some rest => .ok rest
    | none => do
      let rest ← expect (token? (char '(') s)
      let inside ← room.enter
      let rest ← read fuel inside .expression rest
      expect (token? (char ')') rest)
  | fuel + 1, room, .expression, s => do
    let rest ← read fuel room .operand s
    read fuel room .joined rest
  | fuel + 1, room, .joined, s =>
    match expect (token? Token.connective s) >>= read fuel room .operand with
    | .ok rest => read fuel room .joined rest
    | .error .mismatch => .ok s
    | .error .depth => .error .depth

/-- The fuel that is enough to read a part of a text. -/
def Part.fuel : Part → List Char → Nat
  | .operand, s => 2 * s.length + 2
  | .expression, s => 2 * s.length + 3
  | .joined, s => 2 * s.length + 1

/-- The rest after a part, read with as much fuel as it takes. -/
def restAfter (room : Room) (part : Part) (s : List Char) : Except Obstacle (List Char) :=
  read (part.fuel s) room part s

/-- Whether nothing but gaps is left of a text that could be read. -/
def ends : Except Obstacle (List Char) → Bool
  | .ok rest => rest.all isGap
  | .error _ => false

end SparqlSelect.Comparison

namespace SparqlSelect

open Comparison

/-- Whether a text is one comparison. -/
def isComparison (s : List Char) : Bool := ends (expect (comparison? s))

/-- Whether a text is an expression other than a single comparison. -/
def isNestedComparison (s : List Char) : Bool :=
  ends (restAfter none .expression s) && !isComparison s

/-- Whether a text is an expression other than a single comparison, as a reader finds out that can
go into a bracket which stands inside at most `limit` others. -/
def nestedWithin (limit : Nat) (s : List Char) : Except Fault Bool :=
  match restAfter (some (limit + 1)) .expression s with
  | .error .depth => .error .tooDeep
  | outcome => .ok (ends outcome && !isComparison s)

end SparqlSelect
