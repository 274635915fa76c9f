import SparqlSelect.Filter.Kind
import SparqlSelect.Moment.Reader
import SparqlSelect.Traced

/-!
# Ranges

The bounds on one variable are merged into one expression. Lower bounds are paired with upper bounds
in order. A pair whose upper bound lies above its lower bound is an interval, and both have to hold;
any other pair wraps around, as bearings of a compass do, and one of them is enough. Bounds without
a partner stand alone, and everything is joined by `||`.

* `exceeds` — the comparison of two bounds: as numbers, else as dates or times, else as texts.
* `mergeBounds` — the merged expression.
-/

namespace SparqlSelect

/-- A bound on a variable: its value, its comparison and the expression it gives. -/
structure Bound where
  value : Json
  comparison : String
  fragment : String

namespace Bound

/-- Whether the variable has to be greater. -/
def isLower (b : Bound) : Bool :=
  let op := (lowerCase b.comparison).toList
  occursIn ['g', 't'] op || occursIn ['>'] op

/-- Whether the variable has to be less. -/
def isUpper (b : Bound) : Bool :=
  let op := (lowerCase b.comparison).toList
  occursIn ['l', 't'] op || occursIn ['<'] op

end Bound

/-- The number that a bound is; an integer out of range is an error, any other value no number. -/
def boundNumber (value : Json) : Except Fault (Option Binary64) :=
  match value.toDouble with
  | .ok .nan => .ok none
  | .ok x => .ok (some x)
  | .error .tooLarge => .error .tooLarge
  | .error _ => .ok none

/-- `Z` stands for universal time. -/
def expandZulu (s : List Char) : List Char :=
  s.flatMap fun c => if c == 'Z' then "+00:00".toList else [c]

/-- The date or time that a bound is. -/
def boundMoment (value : Json) : Option Moment :=
  Moment.read? (String.ofList (expandZulu (trim value.display).toList))

/-- Whether an upper bound lies above a lower bound. -/
def exceeds (upper lower : Json) : Except Fault Bool := do
  let x ← boundNumber upper
  let y ← boundNumber lower
  match x, y with
  | some x, some y => .ok (y.lt x)
  | _, _ =>
    let later := do
      let s ← boundMoment upper
      let t ← boundMoment lower
      s.after? t
    .ok (later.getD (decide (lower.display < upper.display)))

/-- The fragments of lower and upper bounds, paired in order. -/
def pairBounds : List Bound → List Bound → Except Fault (List String)
  | [], uppers => .ok (uppers.map (·.fragment))
  | lowers, [] => .ok (lowers.map (·.fragment))
  | lower :: lowers, upper :: uppers => do
    let joiner := if ← exceeds upper.value lower.value then "&&" else "||"
    let others ← pairBounds lowers uppers
    .ok (("(" ++ lower.fragment ++ " " ++ joiner ++ " " ++ upper.fragment ++ ")") :: others)

/-- The expression for all bounds, if one of them is a lower or an upper bound. -/
def mergedExpression (bounds : List Bound) : Except Fault (Option String) := do
  let parts ←
    pairBounds (bounds.filter (·.isLower)) (bounds.filter fun b => !b.isLower && b.isUpper)
  .ok (if parts.isEmpty then none else some (" || ".intercalate parts))

/-- The expression for all bounds, with a message on each that is neither a lower nor an upper one.
-/
def mergeBounds (bounds : List Bound) : Traced (Option String) where
  notes := (bounds.filter fun b => !b.isLower && !b.isUpper).map fun b =>
    .log .debug ("Dropping range bound with operator '" ++ b.comparison ++ "'")
  outcome := Fault.raise (mergedExpression bounds)

end SparqlSelect
