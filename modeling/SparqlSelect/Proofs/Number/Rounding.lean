import Mathlib.Algebra.Order.Floor.Semifield
import Mathlib.Data.Rat.Floor
import Mathlib.Tactic.FieldSimp
import Mathlib.Tactic.Linarith
import Mathlib.Tactic.NormNum
import Mathlib.Tactic.Positivity
import Mathlib.Tactic.Ring
import SparqlSelect.Number.Shortest

/-!
# Rounding to doubles

A double is a whole number of gaps, and fewer than `2 ^ 53` of them. The numbers that round to it
lie between the middles of the two gaps beside it, the ends included if its number of gaps is even.
The gap below a double is half as wide as the one above if the double is the least of its size. This
is the only place where the two differ, and a number that lies just below such a double is rounded
in the narrower gaps.

* `exists_significand` — a double as its number of gaps.
* `RoundsTo` — the numbers of units that round to a double.
* `nearestUnits_eq` — they are rounded to it.
* `isDouble` — the numbers that doubles stand for.
* `readsBack_iff` — the test of digits is the test of the number that they stand for.
-/

namespace SparqlSelect.Binary64

theorem twoTo_eq (n : ℕ) : twoTo n = 2 ^ n := rfl

theorem tenTo_eq (n : ℕ) : tenTo n = 10 ^ n := rfl

theorem unitsPerOne_eq_twoTo : unitsPerOne = twoTo 1074 := by
  unfold unitsPerOne
  with_reducible rfl

theorem unitLimit_eq_twoTo : unitLimit = twoTo 2098 := by
  unfold unitLimit
  with_reducible rfl

theorem zero_lt_unitsPerOne : 0 < unitsPerOne := unitsPerOne_eq_twoTo ▸ twoTo_pos 1074

theorem zero_lt_unitLimit : 0 < unitLimit := unitLimit_eq_twoTo ▸ twoTo_pos 2098

/-- A unit is worth more than a one at the 330th decimal place. -/
theorem two_mul_unitsPerOne_le : 2 * unitsPerOne ≤ 10 ^ 330 := by decide +kernel

/-- Half of what a number with 400 zeros is worth is out of range. -/
theorem two_mul_unitLimit_le : 2 * unitLimit ≤ 10 ^ 400 * unitsPerOne := by decide +kernel

/-- How many units make one, as a product. The power itself is never computed. -/
theorem unitsPerOne_eq {j k : ℕ} (h : j + k = 1074) : unitsPerOne = 2 ^ j * 2 ^ k := by
  rw [unitsPerOne_eq_twoTo, twoTo_eq, ← h, Nat.pow_add]

-- ---------------------------------------------------------------------------
-- Gaps
-- ---------------------------------------------------------------------------

section

variable {u n d m k : ℕ}

theorem gap_eq (hHigh : u < 2 ^ (k + 53)) (hLow : k = 0 ∨ 2 ^ (k + 52) ≤ u) : gap u = 2 ^ k := by
  have hLog : u.log2 - 52 = k := by
    rcases Nat.eq_zero_or_pos u with rfl | hu
    · rcases hLow with rfl | hLow
      · rfl
      · exact absurd hLow (Nat.not_le.mpr (Nat.two_pow_pos _))
    · have hBelow := (Nat.log2_lt hu.ne').mpr hHigh
      rcases hLow with rfl | hLow
      · omega
      · have hAbove := (Nat.le_log2 hu.ne').mpr hLow
        omega
  rw [gap, hLog]
  rfl

theorem exists_gap (u : ℕ) :
    ∃ k, gap u = 2 ^ k ∧ u < 2 ^ (k + 53) ∧ (k = 0 ∨ 2 ^ (k + 52) ≤ u) := by
  refine ⟨u.log2 - 52, rfl, ?_, ?_⟩
  · have hBelow : u < 2 ^ (u.log2 + 1) := Nat.lt_log2_self
    exact hBelow.trans_le (Nat.pow_le_pow_right (by decide) (by omega))
  · rcases Nat.lt_or_ge 52 u.log2 with hLog | hLog
    · have hu : u ≠ 0 := by
        rintro rfl
        simp at hLog
      right
      rw [show u.log2 - 52 + 52 = u.log2 by omega]
      exact Nat.log2_self_le hu
    · left
      omega

theorem gap_le (hu : 0 < u) : gap u ≤ u := by
  obtain ⟨k, hGap, -, hLow⟩ := exists_gap u
  rw [hGap]
  rcases hLow with rfl | hLow
  · exact hu
  · exact (Nat.pow_le_pow_right (by decide) (by omega)).trans hLow

theorem gap_pos (u : ℕ) : 0 < gap u := twoTo_pos _

/-- A double is a whole number of gaps, with 53 binary digits unless the gap is the least one. -/
theorem exists_significand (h : gap u ∣ u) :
    ∃ m k, u = m * 2 ^ k ∧ gap u = 2 ^ k ∧ m < 2 ^ 53 ∧ (k = 0 ∨ 2 ^ 52 ≤ m) := by
  obtain ⟨k, hGap, hHigh, hLow⟩ := exists_gap u
  obtain ⟨m, hm⟩ := h
  rw [hGap, Nat.mul_comm] at hm
  have hPos : 0 < 2 ^ k := Nat.two_pow_pos k
  refine ⟨m, k, hm, hGap, ?_, hLow.imp_right fun hLow => ?_⟩
  · rw [hm, Nat.pow_add, Nat.mul_comm] at hHigh
    exact Nat.lt_of_mul_lt_mul_left hHigh
  · rw [hm, Nat.pow_add, Nat.mul_comm] at hLow
    exact Nat.le_of_mul_le_mul_right hLow hPos

-- ---------------------------------------------------------------------------
-- Rounding to whole numbers
-- ---------------------------------------------------------------------------

theorem le_roundHalfEven (hd : 0 < d) (h : m * d ≤ n) : m ≤ roundHalfEven n d := by
  have hDown : m ≤ n / d := (Nat.le_div_iff_mul_le hd).mpr h
  rw [roundHalfEven]
  split_ifs <;> omega

theorem roundHalfEven_le (hd : 0 < d) (h : n ≤ m * d) : roundHalfEven n d ≤ m := by
  have hSplit : d * (n / d) + n % d = n := Nat.div_add_mod n d
  have hDown : n / d ≤ m := Nat.div_le_of_le_mul (by rwa [Nat.mul_comm])
  rw [roundHalfEven]
  rcases Nat.eq_zero_or_pos (n % d) with hZero | hPos
  · rw [if_pos (by omega)]
    exact hDown
  · have hLess : n / d < m := by
      by_contra hNot
      have hProduct : d * m ≤ d * (n / d) := Nat.mul_le_mul_left d (by omega)
      rw [Nat.mul_comm] at hProduct
      omega
    split_ifs <;> omega

/-- A quotient within a half of a whole number is rounded to it, at a half if it is even. -/
theorem roundHalfEven_eq (hd : 0 < d) (hLow : (m : ℚ) - 1 / 2 ≤ n / d)
    (hHigh : (n / d : ℚ) ≤ m + 1 / 2)
    (hTie : m % 2 = 1 → (m : ℚ) - 1 / 2 < n / d ∧ (n / d : ℚ) < m + 1 / 2) :
    roundHalfEven n d = m := by
  have hdq : (0 : ℚ) < d := by exact_mod_cast hd
  have hLow' : 2 * (d * m) ≤ 2 * n + d := by
    rw [le_div_iff₀ hdq] at hLow
    have hq : (2 : ℚ) * (d * m) ≤ 2 * n + d := by linarith
    exact_mod_cast hq
  have hHigh' : 2 * n ≤ 2 * (d * m) + d := by
    rw [div_le_iff₀ hdq] at hHigh
    have hq : (2 : ℚ) * n ≤ 2 * (d * m) + d := by linarith
    exact_mod_cast hq
  have hTie' : m % 2 = 1 → 2 * (d * m) < 2 * n + d ∧ 2 * n < 2 * (d * m) + d := by
    intro hOdd
    obtain ⟨hLow, hHigh⟩ := hTie hOdd
    rw [lt_div_iff₀ hdq] at hLow
    rw [div_lt_iff₀ hdq] at hHigh
    have hLowq : (2 : ℚ) * (d * m) < 2 * n + d := by linarith
    have hHighq : (2 : ℚ) * n < 2 * (d * m) + d := by linarith
    exact ⟨by exact_mod_cast hLowq, by exact_mod_cast hHighq⟩
  have hSplit : d * (n / d) + n % d = n := Nat.div_add_mod n d
  have hRest : n % d < d := Nat.mod_lt n hd
  -- the whole part is the number itself or the one below it
  have hAtMost : n / d ≤ m := by
    by_contra hNot
    have hProduct : d * (m + 1) ≤ d * (n / d) := Nat.mul_le_mul_left d (by omega)
    rw [Nat.mul_add] at hProduct
    omega
  have hAtLeast : m ≤ n / d + 1 := by
    by_contra hNot
    have hProduct : d * (n / d + 2) ≤ d * m := Nat.mul_le_mul_left d (by omega)
    rw [Nat.mul_add] at hProduct
    omega
  rw [roundHalfEven]
  obtain rfl | rfl : m = n / d ∨ m = n / d + 1 := by omega
  · split_ifs <;> omega
  · rw [Nat.mul_add] at hLow' hTie'
    split_ifs <;> omega

-- ---------------------------------------------------------------------------
-- Rounding to doubles
-- ---------------------------------------------------------------------------

/-- The gap below a double: half the gap above at the least double of a size. -/
def gapBelow (u : ℕ) : ℚ := if u = gap u * twoTo 52 ∧ 1 < gap u then gap u / 2 else gap u

/-- A number of units rounds to a double: it lies between the middles of the gaps beside it. -/
def RoundsTo (q : ℚ) (u : ℕ) : Prop :=
  u - gapBelow u / 2 ≤ q ∧ q ≤ u + gap u / 2 ∧
    (endsIncluded u = false → u - gapBelow u / 2 < q ∧ q < u + gap u / 2)

theorem gapBelow_le (u : ℕ) : gapBelow u ≤ gap u := by
  have hPos : (0 : ℚ) < gap u := by exact_mod_cast gap_pos u
  rw [gapBelow]
  split_ifs
  · linarith
  · exact le_refl _

/-- The number that a quotient is cut to, and its gaps. -/
theorem nearestUnits_of_gap (hd : 0 < d) (hGap : gap (n / d) = 2 ^ k)
    (hLow : (m : ℚ) - 1 / 2 ≤ n / d / 2 ^ k) (hHigh : (n / d / 2 ^ k : ℚ) ≤ m + 1 / 2)
    (hTie : m % 2 = 1 → (m : ℚ) - 1 / 2 < n / d / 2 ^ k ∧ (n / d / 2 ^ k : ℚ) < m + 1 / 2) :
    nearestUnits n d = m * 2 ^ k := by
  have hQuotient : (n : ℚ) / ((d * 2 ^ k : ℕ) : ℚ) = n / d / 2 ^ k := by
    push_cast
    rw [div_div]
  have hRound : roundHalfEven n (d * 2 ^ k) = m :=
    roundHalfEven_eq (Nat.mul_pos hd (Nat.two_pow_pos k)) (by rwa [hQuotient])
      (by rwa [hQuotient]) (by rwa [hQuotient])
  rw [nearestUnits, hGap]
  exact congrArg (· * 2 ^ k) hRound

/-- How wide the gaps are at the whole part of a quotient. -/
theorem gap_div_eq (hHigh : (n / d : ℚ) < 2 ^ (k + 53))
    (hLow : k = 0 ∨ (2 : ℚ) ^ (k + 52) ≤ n / d) : gap (n / d) = 2 ^ k := by
  have hFloor : ⌊(n / d : ℚ)⌋₊ = n / d := Nat.floor_div_eq_div n d
  have hNonneg : (0 : ℚ) ≤ n / d := div_nonneg n.cast_nonneg d.cast_nonneg
  refine gap_eq ?_ (hLow.imp_right fun hLow => ?_)
  · rw [← hFloor, Nat.floor_lt hNonneg]
    exact_mod_cast hHigh
  · rw [← hFloor, Nat.le_floor_iff hNonneg]
    exact_mod_cast hLow

/-- What lies just below the least double of a size, where gaps are half as wide. -/
theorem nearestUnits_of_below (hd : 0 < d) (hLow : (2 : ℚ) ^ 53 * 2 ^ k - 2 ^ k / 2 ≤ n / d)
    (hHigh : (n / d : ℚ) < 2 ^ 53 * 2 ^ k) : nearestUnits n d = 2 ^ 53 * 2 ^ k := by
  have hPow : (0 : ℚ) < 2 ^ k := by positivity
  -- just below the power the gap between doubles is still the one of the power below
  have hNumber : gap (n / d) = 2 ^ k := by
    refine gap_div_eq ?_ (.inr ?_)
    · rw [pow_add]
      linarith
    · rw [pow_add]
      linarith
  -- the nearest multiple is the power itself, which is even where it ties
  refine nearestUnits_of_gap hd hNumber ?_ ?_ fun hOdd => by norm_num at hOdd
  · rw [le_div_iff₀ hPow]
    push_cast
    linarith
  · rw [div_le_iff₀ hPow]
    push_cast
    linarith

/-- What rounds to a double and lies in gaps as wide as the one above the double is rounded to
it. -/
theorem nearestUnits_of_same_gap (hd : 0 < d) (hu : u = m * 2 ^ k) (hGap : gap u = 2 ^ k)
    (hHigh : m < 2 ^ 53) (hSame : k = 0 ∨ (2 : ℚ) ^ (k + 52) ≤ n / d) (h : RoundsTo (n / d) u) :
    nearestUnits n d = u := by
  obtain ⟨hq, hq', hEnds⟩ := h
  have hPow : (0 : ℚ) < 2 ^ k := by positivity
  have huq : (u : ℚ) = m * 2 ^ k := by rw [hu]; push_cast; rfl
  have hGapq : (gap u : ℚ) = 2 ^ k := by rw [hGap]; push_cast; rfl
  have hmq : (m : ℚ) + 1 ≤ 2 ^ 53 := by exact_mod_cast hHigh
  have hBelow := gapBelow_le u
  -- an end of the interval belongs to it only where the significand is even, as ties go there
  have hOdd : m % 2 = 1 → endsIncluded u = false := by
    intro hOdd
    rw [endsIncluded, hGap, hu, Nat.mul_div_cancel _ (Nat.two_pow_pos k), hOdd]
    rfl
  rw [huq, hGapq] at hq' hEnds
  rw [huq] at hq
  rw [hGapq] at hBelow
  have hNumber : gap (n / d) = 2 ^ k := by
    refine gap_div_eq ?_ hSame
    rw [pow_add]
    nlinarith
  rw [hu]
  -- what is left is linear: the quotient lies half a gap around the significand
  refine nearestUnits_of_gap hd hNumber ?_ ?_ fun hm => ?_
  · rw [le_div_iff₀ hPow]
    linarith
  · rw [div_le_iff₀ hPow]
    linarith
  · obtain ⟨hEnd, hEnd'⟩ := hEnds (hOdd hm)
    constructor
    · rw [lt_div_iff₀ hPow]
      linarith
    · rw [div_lt_iff₀ hPow]
      linarith

/-- What rounds to a double and lies in narrower gaps than the one above the double is rounded to
it: only the least double of a size has numbers below it that lie so. -/
theorem nearestUnits_of_narrower_gap (hd : 0 < d) (hu : u = m * 2 ^ (k + 1))
    (hGap : gap u = 2 ^ (k + 1)) (hLow : 2 ^ 52 ≤ m) (hLess : (n / d : ℚ) < 2 ^ (k + 1 + 52))
    (h : RoundsTo (n / d) u) : nearestUnits n d = u := by
  have hq := h.1
  have hPow : (0 : ℚ) < 2 ^ k := by positivity
  have huq : (u : ℚ) = m * (2 ^ k * 2) := by rw [hu]; push_cast; rw [pow_succ]
  have hGapq : (gap u : ℚ) = 2 ^ k * 2 := by rw [hGap]; push_cast; rw [pow_succ]
  have hBelow := gapBelow_le u
  rw [huq] at hq
  rw [hGapq] at hBelow
  rw [pow_add, pow_succ] at hLess
  -- the gaps below are narrower at the least significand only
  have hm : m = 2 ^ 52 := by
    refine le_antisymm (not_lt.mp fun hMore => ?_) hLow
    have hMoreq : (2 : ℚ) ^ 52 + 1 ≤ m := by exact_mod_cast hMore
    have hProduct := mul_le_mul_of_nonneg_right hMoreq hPow.le
    linarith
  have hHalf : gapBelow u = 2 ^ k := by
    have hIsLeast : u = gap u * twoTo 52 ∧ 1 < gap u := by
      rw [hGap, twoTo_eq, ← hm, Nat.mul_comm]
      exact ⟨hu, Nat.one_lt_two_pow (by omega)⟩
    rw [gapBelow, if_pos hIsLeast, hGapq]
    ring
  have hmq : (m : ℚ) = 2 ^ 52 := by rw [hm]; norm_cast
  rw [hHalf, hmq] at hq
  have hNearest : nearestUnits n d = 2 ^ 53 * 2 ^ k :=
    nearestUnits_of_below hd (by linarith) (by linarith)
  rw [hNearest, hu, hm, pow_succ 2 k]
  ring

/-- What rounds to a double is rounded to it. -/
theorem nearestUnits_eq (hd : 0 < d) (hDouble : gap u ∣ u) (h : RoundsTo (n / d) u) :
    nearestUnits n d = u := by
  obtain ⟨m, k, hu, hGap, hHigh, hLow⟩ := exists_significand hDouble
  by_cases hSame : k = 0 ∨ (2 : ℚ) ^ (k + 52) ≤ n / d
  · exact nearestUnits_of_same_gap hd hu hGap hHigh hSame h
  · rw [not_or, not_le] at hSame
    obtain ⟨hk, hLess⟩ := hSame
    obtain ⟨j, rfl⟩ := Nat.exists_eq_add_of_le' (Nat.one_le_iff_ne_zero.mpr hk)
    exact nearestUnits_of_narrower_gap hd hu hGap (hLow.resolve_left hk) hLess h

/-- Rounding at most doubles a number that is not small. -/
theorem nearestUnits_le (hd : 0 < d) : nearestUnits n d ≤ 2 * (n / d) + 1 := by
  obtain ⟨k, hGap, -, hLow⟩ := exists_gap (n / d)
  have hPow : 0 < 2 ^ k := Nat.two_pow_pos k
  have hScaled : 0 < d * 2 ^ k := Nat.mul_pos hd hPow
  -- rounding a quotient adds one gap at most, and the gap is no wider than the quotient
  have hRound : roundHalfEven n (d * 2 ^ k) ≤ n / (d * 2 ^ k) + 1 :=
    roundHalfEven_le hScaled (Nat.lt_mul_of_div_lt (Nat.lt_succ_self _) hScaled).le
  have hDown : n / (d * 2 ^ k) * 2 ^ k ≤ n / d := by
    rw [← Nat.div_div_eq_div_mul]
    exact Nat.div_mul_le_self _ _
  rw [nearestUnits, hGap]
  generalize n / d = q at hLow hDown ⊢
  have hGapLe : 2 ^ k ≤ q + 1 := by
    rcases hLow with rfl | hLow
    · exact Nat.succ_le_succ (Nat.zero_le q)
    · exact (Nat.pow_le_pow_right (by decide) (Nat.le_add_right k 52)).trans (by omega)
  calc roundHalfEven n (d * 2 ^ k) * 2 ^ k ≤ (n / (d * 2 ^ k) + 1) * 2 ^ k :=
        Nat.mul_le_mul_right _ hRound
    _ = n / (d * 2 ^ k) * 2 ^ k + 2 ^ k := by ring
    _ ≤ q + (q + 1) := Nat.add_le_add hDown hGapLe
    _ = 2 * q + 1 := by ring

/-- Rounding at most halves a number. -/
theorem le_nearestUnits (hd : 0 < d) : n / d ≤ 2 * nearestUnits n d := by
  obtain ⟨k, hGap, -, hLow⟩ := exists_gap (n / d)
  have hPow : 0 < 2 ^ k := Nat.two_pow_pos k
  have hScaled : 0 < d * 2 ^ k := Nat.mul_pos hd hPow
  -- what is cut off is less than one gap, which is no more than what is kept
  have hRound : n / d / 2 ^ k ≤ roundHalfEven n (d * 2 ^ k) := by
    rw [Nat.div_div_eq_div_mul]
    exact le_roundHalfEven hScaled (Nat.div_mul_le_self _ _)
  have hKept : n / d / 2 ^ k * 2 ^ k ≤ nearestUnits n d := by
    rw [nearestUnits, hGap]
    exact Nat.mul_le_mul_right _ hRound
  generalize n / d = q at hLow hKept
  have hSplit : 2 ^ k * (q / 2 ^ k) + q % 2 ^ k = q := Nat.div_add_mod q (2 ^ k)
  rw [Nat.mul_comm] at hKept
  rcases hLow with rfl | hLow
  · rw [Nat.pow_zero, Nat.mod_one] at hSplit
    omega
  · have hRest : q % 2 ^ k < 2 ^ k := Nat.mod_lt q hPow
    have hOne : 1 ≤ q / 2 ^ k :=
      (Nat.one_le_div_iff hPow).mpr ((Nat.pow_le_pow_right (by decide) (by omega)).trans hLow)
    have hProduct : 2 ^ k * 1 ≤ 2 ^ k * (q / 2 ^ k) := Nat.mul_le_mul_left _ hOne
    omega

/-- Whether a finite number is in range and has 53 binary digits. -/
def isDouble : Binary64 → Bool
  | .finite _ u => u % gap u == 0 && decide (u < unitLimit)
  | .infinite _ | .nan => true

theorem isDouble_finite_iff {s : Bool} :
    (finite s u).isDouble = true ↔ gap u ∣ u ∧ u < unitLimit := by
  rw [isDouble, Bool.and_eq_true, beq_iff_eq, decide_eq_true_iff, Nat.dvd_iff_mod_eq_zero]

-- ---------------------------------------------------------------------------
-- Digits that read back
-- ---------------------------------------------------------------------------

theorem unitsPerOne_pos : (0 : ℚ) < unitsPerOne := by
  exact_mod_cast zero_lt_unitsPerOne

/-- Digits and an exponent as a quotient of quarter units. -/
theorem quarterUnits_eq (digits : ℕ) (e : ℤ) :
    0 < (quarterUnits digits e).2 ∧
      ((quarterUnits digits e).1 : ℚ) / (quarterUnits digits e).2 =
        4 * (digits * 10 ^ e * unitsPerOne) := by
  cases e with
  | ofNat e =>
    refine ⟨Nat.one_pos, ?_⟩
    simp only [quarterUnits, tenTo_eq]
    push_cast
    rw [Int.ofNat_eq_natCast, zpow_natCast]
    ring
  | negSucc e =>
    refine ⟨tenTo_pos _, ?_⟩
    simp only [quarterUnits, tenTo_eq]
    push_cast
    rw [zpow_negSucc]
    ring

theorem quarterInterval_eq (hu : 0 < u) :
    ((quarterInterval u).1 : ℚ) = 4 * (u - gapBelow u / 2) ∧
      ((quarterInterval u).2 : ℚ) = 4 * (u + gap u / 2) := by
  have hGap := gap_le hu
  have hLeast : (u == gap u * twoTo 52 && decide (1 < gap u)) = true ↔
      u = gap u * twoTo 52 ∧ 1 < gap u := by
    rw [Bool.and_eq_true, beq_iff_eq, decide_eq_true_iff]
  constructor
  · -- the lower end depends on whether the gap below is the narrower one
    rw [quarterInterval, gapBelow]
    simp only [hLeast]
    split_ifs
    · rw [Nat.cast_sub (by omega)]
      push_cast
      ring
    · rw [Nat.cast_sub (by omega)]
      push_cast
      ring
  · rw [quarterInterval]
    push_cast
    ring

/-- Digits read back exactly if the number that they stand for rounds to the double. -/
theorem readsBack_iff (hu : 0 < u) (digits : ℕ) (e : ℤ) :
    readsBack u digits e = true ↔ RoundsTo (digits * 10 ^ e * unitsPerOne) u := by
  obtain ⟨hd, hQuotient⟩ := quarterUnits_eq digits e
  obtain ⟨hLow, hHigh⟩ := quarterInterval_eq hu
  rw [readsBack, RoundsTo]
  generalize quarterUnits digits e = q at hd hQuotient
  generalize quarterInterval u = ends at hLow hHigh
  obtain ⟨n, d⟩ := q
  obtain ⟨low, high⟩ := ends
  simp only at hd hQuotient hLow hHigh ⊢
  have hdq : (0 : ℚ) < d := by exact_mod_cast hd
  generalize (digits * 10 ^ e * unitsPerOne : ℚ) = x at hQuotient ⊢
  -- both ends and the number are over one denominator, so they compare by their numerators
  have hScale {a b : ℕ} {y z : ℚ} (ha : (a : ℚ) = 4 * y * d) (hb : (b : ℚ) = 4 * z * d) :
      (a ≤ b ↔ y ≤ z) ∧ (a < b ↔ y < z) := by
    have hLe : (a : ℚ) ≤ b ↔ a ≤ b := Nat.cast_le
    have hLt : (a : ℚ) < b ↔ a < b := Nat.cast_lt
    rw [← hLe, ← hLt, ha, hb, mul_le_mul_iff_left₀ hdq, mul_lt_mul_iff_left₀ hdq]
    exact ⟨by constructor <;> intro h <;> linarith, by constructor <;> intro h <;> linarith⟩
  have hn : (n : ℚ) = 4 * x * d := by rw [← hQuotient, div_mul_cancel₀ _ hdq.ne']
  have hLowEnd := hScale (a := low * d) (by rw [Nat.cast_mul, hLow]) hn
  have hHighEnd := hScale (b := high * d) hn (by rw [Nat.cast_mul, hHigh])
  cases endsIncluded u with
  | true => simp [hLowEnd, hHighEnd]
  | false =>
    simp only [Bool.false_eq_true, if_false, Bool.and_eq_true, decide_eq_true_iff, hLowEnd,
      hHighEnd, forall_const]
    exact ⟨fun h => ⟨h.1.le, h.2.le, h⟩, fun h => h.2.2⟩

end

end SparqlSelect.Binary64
