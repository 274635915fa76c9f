import SparqlSelect.Number.Binary64

/-!
# Texts of doubles

The text of a double holds the fewest digits that read back as the same double, and of those digits
the ones nearest to it.

* `Binary64.shortest` — digits and exponent, by testing on each decimal grid the two neighbours of
  the number, coarsest grid first.
* `Binary64.text` — positional from `10 ^ (-4)` up to `10 ^ 16`, with an exponent elsewhere.
* `Binary64.fixedHundredths` — exactly two places.
-/

namespace SparqlSelect.Binary64

/-- Four times the ends of the interval that rounds to a positive number of units. -/
def quarterInterval (units : Nat) : Nat × Nat :=
  let g := gap units
  (4 * units - (if units == g * twoTo 52 && 1 < g then g else 2 * g), 4 * units + 2 * g)

/-- The ends of the interval belong to it when the last binary digit is even. -/
def endsIncluded (units : Nat) : Bool := units / gap units % 2 == 0

/-- `digits * 10 ^ exponent` as a quotient of quarter units. -/
def quarterUnits (digits : Nat) : Int → Nat × Nat
  | .ofNat e => (digits * tenTo e * (4 * unitsPerOne), 1)
  | .negSucc e => (digits * (4 * unitsPerOne), tenTo (e + 1))

/-- Whether `digits * 10 ^ exponent` reads back as a positive number of units. -/
def readsBack (units digits : Nat) (exponent : Int) : Bool :=
  let (n, d) := quarterUnits digits exponent
  let (low, high) := quarterInterval units
  if endsIncluded units then low * d ≤ n && n ≤ high * d else low * d < n && n < high * d

/-- The number of units on the grid of `10 ^ exponent`: the point below and twice what is left,
compared with one step of the grid. -/
def onGrid (units : Nat) (exponent : Int) : Nat × Ordering :=
  let (step, scale) := quarterUnits 1 exponent
  let n := 4 * units * scale
  (n / step, compare (2 * (n % step)) step)

/-- The point of a grid that reads back, if one of the two around the number does. -/
def onGrid? (units : Nat) (exponent : Int) : Option Nat :=
  let (below, rest) := onGrid units exponent
  match readsBack units below exponent, readsBack units (below + 1) exponent with
  | true, false => some below
  | false, true => some (below + 1)
  | false, false => none
  | true, true =>
    match rest with
    | .lt => some below
    | .gt => some (below + 1)
    | .eq => some (if below % 2 == 0 then below else below + 1)

/-- The least `k` from `k` on, within `fuel` steps, for which `10 ^ k` times the number reaches one.
-/
def leadingZeros (units : Nat) : Nat → Nat → Nat
  | 0, k => k
  | fuel + 1, k => if unitsPerOne ≤ units * tenTo k then k else leadingZeros units fuel (k + 1)

/-- The decimal exponent of the first digit. -/
def decimalExponent (units : Nat) : Int :=
  if unitsPerOne ≤ units then (digitCount (units / unitsPerOne) : Int) - 1
  else -(leadingZeros units 330 0 : Int)

/-- Tries the grids with `count`, `count + 1`, … digits. -/
def searchGrids (units : Nat) (top : Int) : Nat → Nat → Nat × Int
  | 0, _ => (0, 0)
  | fuel + 1, count =>
    let exponent := top - count + 1
    match onGrid? units exponent with
    | some digits => (digits, exponent)
    | none => searchGrids units top fuel (count + 1)

/-- The fewest digits that read back, and their exponent; seventeen always suffice. -/
def shortest (units : Nat) : Nat × Int := searchGrids units (decimalExponent units) 17 1

/-- A text without the zeros at its end. -/
def withoutTrailingZeros (s : List Char) : List Char := (s.reverse.dropWhile (· == '0')).reverse

/-- Digits with the point after the first `point` of them, or with an exponent when that is far off.
-/
def placePoint (digits : List Char) (point : Int) : List Char :=
  if -4 < point && point ≤ 16 then
    if point ≤ 0 then ['0', '.'] ++ List.replicate (-point).toNat '0' ++ digits
    else
      let before := digits.take point.toNat
      let after := digits.drop point.toNat
      before ++ List.replicate (point.toNat - before.length) '0' ++ ['.'] ++
        (if after.isEmpty then ['0'] else after)
  else
    let e := point - 1
    let places := Nat.toDigits 10 e.natAbs
    digits.take 1 ++ (if digits.length ≤ 1 then [] else '.' :: digits.drop 1) ++
      ['e', if e < 0 then '-' else '+'] ++ (if places.length < 2 then '0' :: places else places)

/-- The text of a double. -/
def text : Binary64 → String
  | .nan => "nan"
  | .infinite s => if s then "-inf" else "inf"
  | .finite s u =>
    let sign := if s then ['-'] else []
    if u == 0 then String.ofList (sign ++ ['0', '.', '0'])
    else
      let (digits, exponent) := shortest u
      let all := Nat.toDigits 10 digits
      String.ofList (sign ++ placePoint (withoutTrailingZeros all) (all.length + exponent))

/-- The text of a double with two places, correctly rounded. -/
def fixedHundredths : Binary64 → List Char
  | .nan => ['n', 'a', 'n']
  | .infinite s => (if s then ['-'] else []) ++ ['i', 'n', 'f']
  | .finite s u =>
    let n := roundHalfEven (u * 100) unitsPerOne
    let places := Nat.toDigits 10 (n % 100)
    (if s then ['-'] else []) ++ Nat.toDigits 10 (n / 100) ++ ['.'] ++
      List.replicate (2 - places.length) '0' ++ places

end SparqlSelect.Binary64
