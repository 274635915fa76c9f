import SparqlSelect.Number.Power

/-!
# Double-precision numbers

Every finite double is a whole number of units of `2 ^ (-1074)`, the smallest positive double, so a
double is kept here as a sign and that number. All arithmetic is exact arithmetic on natural numbers
followed by one rounding, and two finite doubles compare as the integers they hold.

* `Binary64.nearest` — the double nearest to a quotient of units, ties to the even one.
* `Binary64.ofInt?`, `Binary64.ofDecimal` — the doubles nearest to an integer and to a decimal.
* `Binary64.add`, `Binary64.mul` — the doubles nearest to a sum and to a product.
* `Binary64.lt` — the order; a `nan` is below and above nothing.
-/

namespace SparqlSelect

/-- `n / d` rounded to a whole number; a tie goes to the even neighbour. -/
def roundHalfEven (n d : Nat) : Nat :=
  let q := n / d
  let r := n % d
  if 2 * r < d then q
  else if d < 2 * r then q + 1
  else if q % 2 = 0 then q else q + 1

/-- A double: a sign and a number of units of `2 ^ (-1074)`, an infinity, or not a number. -/
inductive Binary64 where
  | finite (negative : Bool) (units : Nat)
  | infinite (negative : Bool)
  | nan
deriving DecidableEq, Repr

namespace Binary64

/-- How many units make one. -/
@[irreducible] def unitsPerOne : Nat := twoTo 1074

/-- The first number of units that is out of range. -/
@[irreducible] def unitLimit : Nat := twoTo 2098

/-- Zero, the positive one. -/
def zero : Binary64 := .finite false 0

/-- The gap between neighbouring doubles at a magnitude: 53 binary digits are kept. -/
def gap (units : Nat) : Nat := twoTo (units.log2 - 52)

/-- `n / d` units rounded to 53 binary digits, ties to even. -/
def nearestUnits (n d : Nat) : Nat :=
  let g := gap (n / d)
  roundHalfEven n (d * g) * g

/-- The double nearest to `n / d` units; past the largest double it is infinite. -/
def nearest (negative : Bool) (n d : Nat) : Binary64 :=
  let u := nearestUnits n d
  if u < unitLimit then .finite negative u else .infinite negative

/-- The double nearest to an integer, unless the integer is out of range. -/
def ofInt? (n : Int) : Option Binary64 :=
  match nearest (decide (n < 0)) (unitsPerOne * n.natAbs) 1 with
  | .finite s u => some (.finite s u)
  | _ => none

/-- How many decimal digits a number has; zero has none. -/
def digitCount (n : Nat) : Nat := if n = 0 then 0 else (Nat.toDigits 10 n).length

/--
The double nearest to `digits * 10 ^ exponent`. Far outside the range of doubles the answer is
known from the number of digits alone, and the power is not computed.
-/
def ofDecimal (negative : Bool) (digits : Nat) (exponent : Int) : Binary64 :=
  let top := (digitCount digits : Int) + exponent
  if digits = 0 || top < -400 then .finite negative 0
  else if 400 < top then .infinite negative
  else match exponent with
    | .ofNat e => nearest negative (digits * tenTo e * unitsPerOne) 1
    | .negSucc e => nearest negative (digits * unitsPerOne) (tenTo (e + 1))

/-- The signed number of units of a finite double. -/
def signed (negative : Bool) (units : Nat) : Int := if negative then -units else units

/-- The strict order of doubles. -/
def lt : Binary64 → Binary64 → Bool
  | .nan, _ | _, .nan => false
  | .finite s u, .finite t v => signed s u < signed t v
  | .infinite s, .infinite t => s && !t
  | .infinite s, .finite _ _ => s
  | .finite _ _, .infinite t => !t

/-- Whether the number is a whole one. -/
def isWhole : Binary64 → Bool
  | .finite _ u => u % unitsPerOne == 0
  | _ => false

/-- Whether the number is zero, of either sign. -/
def isZero : Binary64 → Bool
  | .finite _ u => u == 0
  | _ => false

/-- The integer part of a finite number of units, cut toward zero. -/
def integerPart (negative : Bool) (units : Nat) : Int := signed negative (units / unitsPerOne)

/-- The double nearest to a double divided by a positive number. -/
def divideBy (x : Binary64) (d : Nat) : Binary64 :=
  match x with
  | .finite s u => nearest s u d
  | other => other

/-- The double nearest to a sum; only a sum of negative zeros is a negative zero. -/
def add : Binary64 → Binary64 → Binary64
  | .nan, _ | _, .nan => .nan
  | .infinite s, .infinite t => if s == t then .infinite s else .nan
  | .infinite s, .finite _ _ | .finite _ _, .infinite s => .infinite s
  | .finite s u, .finite t v =>
    let sum := signed s u + signed t v
    nearest (decide (sum < 0) || (sum == 0 && s && t)) sum.natAbs 1

/-- The double nearest to a product. -/
def mul : Binary64 → Binary64 → Binary64
  | .nan, _ | _, .nan => .nan
  | .infinite s, .infinite t => .infinite (s != t)
  | .infinite s, .finite t u | .finite s u, .infinite t =>
    if u = 0 then .nan else .infinite (s != t)
  | .finite s u, .finite t v => nearest (s != t) (u * v) unitsPerOne

/-- A double with the other sign. -/
def negate : Binary64 → Binary64
  | .finite s u => .finite (!s) u
  | .infinite s => .infinite (!s)
  | .nan => .nan

/-- The double nearest to the decimal with two places that is nearest to a double. -/
def roundToHundredths : Binary64 → Binary64
  | .finite s u => nearest s (roundHalfEven (u * 100) unitsPerOne * unitsPerOne) 100
  | other => other

end Binary64

end SparqlSelect
