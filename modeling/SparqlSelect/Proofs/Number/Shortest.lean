import SparqlSelect.Proofs.Number.Rounding

/-!
# The shortest digits of a double

The digits of a double are searched on decimal grids, the coarsest one first. On each grid only the
two points beside the double come into question, and one of them is within half a step. With
seventeen digits a step is less than the narrowest gap beside the double, so that point reads back
and the search never fails.

The point below has as many digits as the grid asks for. The one above it may be the next power of
ten, which has one more; then the double is close to that power.

* `decimalExponent_spec` — the power of ten that a double starts with.
* `exists_near` — seventeen digits always read back.
* `IsShortest`, `shortest_spec` — what is known of the digits that are found.
-/

namespace SparqlSelect.Binary64

/-- The number that a number of units is. -/
def ofUnits (u : ℕ) : ℚ := u / unitsPerOne

section

variable {u n k fuel count digits : ℕ} {e top : ℤ}

theorem ofUnits_mul (u : ℕ) : ofUnits u * unitsPerOne = u :=
  div_mul_cancel₀ _ unitsPerOne_pos.ne'

-- ---------------------------------------------------------------------------
-- The first digit
-- ---------------------------------------------------------------------------

theorem digitCount_le_iff : digitCount n ≤ k ↔ n < 10 ^ k := by
  rw [digitCount]
  split_ifs with hZero
  · subst hZero
    simp
  · rcases Nat.eq_zero_or_pos k with rfl | hk
    · have hPos : 0 < (Nat.toDigits 10 n).length := Nat.length_toDigits_pos
      simp only [Nat.pow_zero]
      omega
    · exact Nat.length_toDigits_le_iff (by decide) hk

theorem lt_digitCount_iff : k < digitCount n ↔ 10 ^ k ≤ n := by
  rw [← Nat.not_le, digitCount_le_iff, Nat.not_lt]

/-- The first power of ten that makes a number of units one, where the fuel suffices. -/
theorem leadingZeros_spec (hBelow : ∀ j < k, u * 10 ^ j < unitsPerOne)
    (hFuel : unitsPerOne ≤ u * 10 ^ (k + fuel)) :
    unitsPerOne ≤ u * 10 ^ leadingZeros u fuel k ∧
      ∀ j < leadingZeros u fuel k, u * 10 ^ j < unitsPerOne := by
  induction fuel generalizing k with
  | zero => exact ⟨hFuel, hBelow⟩
  | succ fuel ih =>
    rw [leadingZeros]
    split_ifs with hReached
    · exact ⟨hReached, hBelow⟩
    · refine ih (fun j hj => ?_) (by rwa [Nat.add_assoc, Nat.add_comm 1])
      rcases Nat.lt_or_eq_of_le (Nat.le_of_lt_succ hj) with hLess | rfl
      · exact hBelow j hLess
      · exact Nat.not_le.mp hReached

/-- The power of ten that a double starts with. -/
theorem decimalExponent_spec (hu : 0 < u) :
    (10 : ℚ) ^ decimalExponent u ≤ ofUnits u ∧ ofUnits u < 10 ^ (decimalExponent u + 1) := by
  have hOne := unitsPerOne_pos
  rw [ofUnits, le_div_iff₀ hOne, div_lt_iff₀ hOne, decimalExponent]
  have hOneNat : 0 < unitsPerOne := zero_lt_unitsPerOne
  split_ifs with hWhole
  · -- the digits before the point tell
    have hSome : 0 < u / unitsPerOne := Nat.div_pos hWhole hOneNat
    obtain ⟨c, hc⟩ : ∃ c, digitCount (u / unitsPerOne) = c + 1 := by
      refine Nat.exists_eq_succ_of_ne_zero fun hNone => ?_
      have hLess := digitCount_le_iff.mp hNone.le
      simp only [Nat.pow_zero] at hLess
      omega
    have hLow : 10 ^ c * unitsPerOne ≤ u :=
      (Nat.le_div_iff_mul_le hOneNat).mp (lt_digitCount_iff.mp (by omega))
    have hHigh : u < 10 ^ (c + 1) * unitsPerOne :=
      (Nat.div_lt_iff_lt_mul hOneNat).mp (digitCount_le_iff.mp hc.le)
    rw [hc]
    push_cast
    rw [add_sub_cancel_right]
    constructor
    · rw [zpow_natCast]
      exact_mod_cast hLow
    · rw [← Nat.cast_succ, zpow_natCast]
      exact_mod_cast hHigh
  · -- the zeros behind the point tell
    have hFuel : unitsPerOne ≤ u * 10 ^ (0 + 330) := by
      have hPower : unitsPerOne ≤ 10 ^ 330 :=
        (Nat.le_mul_of_pos_left _ two_pos).trans two_mul_unitsPerOne_le
      rw [Nat.zero_add]
      exact hPower.trans (Nat.le_mul_of_pos_left _ hu)
    obtain ⟨hReached, hBelow⟩ := leadingZeros_spec (k := 0) (by simp) hFuel
    generalize leadingZeros u 330 0 = z at hReached hBelow
    obtain ⟨j, rfl⟩ : ∃ j, z = j + 1 := by
      refine Nat.exists_eq_succ_of_ne_zero fun hNone => hWhole ?_
      simpa [hNone] using hReached
    have hLess := hBelow j (Nat.lt_succ_self j)
    have hPow : (0 : ℚ) < 10 ^ (j + 1) := by positivity
    have hPow' : (0 : ℚ) < 10 ^ j := by positivity
    constructor
    · rw [zpow_neg, zpow_natCast, inv_mul_le_iff₀ hPow, mul_comm]
      exact_mod_cast hReached
    · push_cast
      rw [neg_add_rev, add_comm, add_neg_cancel_left, zpow_neg, zpow_natCast,
        lt_inv_mul_iff₀ hPow', mul_comm]
      exact_mod_cast hLess

-- ---------------------------------------------------------------------------
-- Grids
-- ---------------------------------------------------------------------------

/-- The points of a grid below and above a number, and on which side of their middle it is. -/
theorem onGrid_spec (u : ℕ) (e : ℤ) {below : ℕ} {rest : Ordering}
    (h : onGrid u e = (below, rest)) :
    below * 10 ^ e ≤ ofUnits u ∧ ofUnits u < (below + 1) * 10 ^ e ∧
      (rest ≠ .gt → ofUnits u ≤ (below + 1 / 2) * 10 ^ e) ∧
      (rest ≠ .lt → (below + 1 / 2) * 10 ^ e ≤ ofUnits u) := by
  obtain ⟨hScale, hStep⟩ := quarterUnits_eq 1 e
  rw [onGrid] at h
  generalize quarterUnits 1 e = q at hScale hStep h
  obtain ⟨step, scale⟩ := q
  simp only at hScale hStep
  obtain ⟨rfl, rfl⟩ := Prod.mk.inj h
  have hScaleq : (0 : ℚ) < scale := by exact_mod_cast hScale
  have hUnit : (0 : ℚ) < 4 * unitsPerOne * scale :=
    mul_pos (mul_pos (by norm_num) unitsPerOne_pos) hScaleq
  have hPow : (0 : ℚ) < 10 ^ e := zpow_pos (by norm_num) e
  have hStepq : (step : ℚ) = 10 ^ e * (4 * unitsPerOne * scale) := by
    rw [(div_eq_iff hScaleq.ne').mp hStep]
    push_cast
    ring
  have hNumber : ((4 * u * scale : ℕ) : ℚ) = ofUnits u * (4 * unitsPerOne * scale) := by
    rw [Nat.cast_mul, Nat.cast_mul, ← ofUnits_mul u]
    push_cast
    ring
  have hStepPos : 0 < step := by
    have hPos : (0 : ℚ) < step := hStepq ▸ mul_pos hPow hUnit
    exact_mod_cast hPos
  generalize 4 * u * scale = n at hNumber
  generalize (4 * unitsPerOne * scale : ℚ) = unit at hUnit hStepq hNumber
  have hSplit : (n : ℚ) = step * (n / step : ℕ) + (n % step : ℕ) := by
    exact_mod_cast (Nat.div_add_mod n step).symm
  have hRest : ((n % step : ℕ) : ℚ) < step := by exact_mod_cast Nat.mod_lt n hStepPos
  have hRest' : (0 : ℚ) ≤ (n % step : ℕ) := Nat.cast_nonneg _
  -- everything is compared after multiplication with the unit
  have hLe {y : ℚ} (hy : y * 10 ^ e * unit ≤ n) : y * 10 ^ e ≤ ofUnits u :=
    le_of_mul_le_mul_right (hy.trans hNumber.le) hUnit
  have hGe {y : ℚ} (hy : (n : ℚ) ≤ y * 10 ^ e * unit) : ofUnits u ≤ y * 10 ^ e :=
    le_of_mul_le_mul_right (hNumber.ge.trans hy) hUnit
  refine ⟨hLe ?_, lt_of_mul_lt_mul_right ?_ hUnit.le, fun hSide => hGe ?_, fun hSide => hLe ?_⟩
  · rw [mul_assoc, ← hStepq]
    linarith
  · rw [← hNumber, mul_assoc, ← hStepq]
    linarith
  · have hHalf : 2 * (n % step) ≤ step := Nat.compare_ne_gt.mp hSide
    have hHalfq : (2 : ℚ) * (n % step : ℕ) ≤ step := by exact_mod_cast hHalf
    rw [mul_assoc, ← hStepq]
    linarith
  · have hHalf : step ≤ 2 * (n % step) := Nat.compare_ne_lt.mp hSide
    have hHalfq : (step : ℚ) ≤ 2 * (n % step : ℕ) := by exact_mod_cast hHalf
    rw [mul_assoc, ← hStepq]
    linarith

/-- What is found on a grid reads back, and is one of the two points beside the number. -/
theorem onGrid?_eq_some (h : onGrid? u e = some digits) :
    readsBack u digits e = true ∧
      (digits = (onGrid u e).1 ∨ digits = (onGrid u e).1 + 1) := by
  rw [onGrid?] at h
  generalize onGrid u e = grid at h ⊢
  obtain ⟨below, rest⟩ := grid
  simp only at h ⊢
  -- the point below reads back, the one above, neither, or both: then the nearer one is taken
  split at h
  · rename_i hBelow _
    cases h
    exact ⟨hBelow, .inl rfl⟩
  · rename_i hAbove
    cases h
    exact ⟨hAbove, .inr rfl⟩
  · cases h
  · rename_i hBelow hAbove
    split at h
    · cases h
      exact ⟨hBelow, .inl rfl⟩
    · cases h
      exact ⟨hAbove, .inr rfl⟩
    · cases h
      split_ifs
      · exact ⟨hBelow, .inl rfl⟩
      · exact ⟨hAbove, .inr rfl⟩

/-- If one of the two points beside a number reads back, something is found. -/
theorem onGrid?_isSome (h : readsBack u (onGrid u e).1 e = true ∨
    readsBack u ((onGrid u e).1 + 1) e = true) : (onGrid? u e).isSome = true := by
  rw [onGrid?]
  generalize onGrid u e = grid at h ⊢
  obtain ⟨below, rest⟩ := grid
  simp only at h ⊢
  split
  · rfl
  · rfl
  · rename_i hBelow hAbove
    simp [hBelow, hAbove] at h
  · split <;> rfl

-- ---------------------------------------------------------------------------
-- Seventeen digits suffice
-- ---------------------------------------------------------------------------

/-- The gap below a double is wider than a step of its grid of seventeen digits. -/
theorem lt_gapBelow (hu : 0 < u) : (u : ℚ) / 10 ^ 16 < gapBelow u := by
  have huq : (0 : ℚ) < u := by exact_mod_cast hu
  suffices hBinary : (u : ℚ) / 2 ^ 53 ≤ gapBelow u from
    lt_of_lt_of_le (div_lt_div_of_pos_left huq (by norm_num) (by norm_num)) hBinary
  rw [gapBelow]
  -- at a boundary the gap below is half of it, and there is one bit less to spare
  split_ifs with hLeast
  · have hSize : u = gap u * 2 ^ 52 := hLeast.1
    have hSizeq : (u : ℚ) = gap u * 2 ^ 52 := by exact_mod_cast hSize
    rw [div_le_iff₀ (by norm_num)]
    linarith
  · obtain ⟨k, hGap, hHigh, -⟩ := exists_gap u
    have hHighq : (u : ℚ) < 2 ^ k * 2 ^ 53 := by
      rw [← pow_add]
      exact_mod_cast hHigh
    rw [hGap, div_le_iff₀ (by norm_num)]
    push_cast
    exact hHighq.le

theorem roundsTo_of_near {q : ℚ} (hLow : (u : ℚ) - gapBelow u / 2 < q)
    (hHigh : q < u + gapBelow u / 2) : RoundsTo q u := by
  have hBelow := gapBelow_le u
  exact ⟨hLow.le, by linarith, fun _ => ⟨hLow, by linarith⟩⟩

/-- Seventeen digits always read back. -/
theorem onGrid?_seventeen (hu : 0 < u) :
    (onGrid? u (decimalExponent u - 16)).isSome = true := by
  obtain ⟨hStart, -⟩ := decimalExponent_spec hu
  have hGap := lt_gapBelow hu
  have hStep : (10 : ℚ) ^ (decimalExponent u - 16) * 10 ^ 16 = 10 ^ decimalExponent u := by
    rw [zpow_sub₀ (by norm_num)]
    norm_num
  rw [← hStep] at hStart
  generalize decimalExponent u - 16 = e at hStart
  have hUnits {y z : ℚ} (h : y ≤ z) : y * unitsPerOne ≤ z * unitsPerOne :=
    mul_le_mul_of_nonneg_right h unitsPerOne_pos.le
  refine onGrid?_isSome ?_
  rcases hGrid : onGrid u e with ⟨below, rest⟩
  obtain ⟨hBelow, hAbove, hLeft, hRight⟩ := onGrid_spec u e hGrid
  have hStart := hUnits hStart
  have hBelow := hUnits hBelow
  have hAbove := hUnits hAbove.le
  rw [ofUnits_mul] at hStart hBelow hAbove
  simp only [readsBack_iff hu]
  -- the nearer of the two neighbours on the grid is half a step away, which is less than the gap
  by_cases hSide : rest = .gt
  · right
    have hMiddle := hUnits (hRight (by simp [hSide]))
    rw [ofUnits_mul] at hMiddle
    push_cast
    exact roundsTo_of_near (by linarith) (by linarith)
  · left
    have hMiddle := hUnits (hLeft hSide)
    rw [ofUnits_mul] at hMiddle
    exact roundsTo_of_near (by linarith) (by linarith)

/-- A search finds something if there is something to find. -/
theorem searchGrids_spec (h : ∃ i < fuel, (onGrid? u (top - (count + i : ℕ) + 1)).isSome = true) :
    ∃ c digits, count ≤ c ∧ onGrid? u (top - c + 1) = some digits ∧
      searchGrids u top fuel count = (digits, top - c + 1) := by
  -- induction on the fuel: the first grid with a candidate ends the search
  induction fuel generalizing count with
  | zero =>
    obtain ⟨i, hi, -⟩ := h
    exact absurd hi (Nat.not_lt_zero i)
  | succ fuel ih =>
    rw [searchGrids]
    cases hHere : onGrid? u (top - count + 1) with
    | some digits => exact ⟨count, digits, Nat.le_refl _, hHere, rfl⟩
    | none =>
      obtain ⟨i, hi, hSome⟩ := h
      cases i with
      | zero =>
        rw [Nat.add_zero, hHere] at hSome
        cases hSome
      | succ i =>
        rw [← Nat.add_assoc, Nat.add_right_comm] at hSome
        obtain ⟨c, digits, hc, hFound, hSearch⟩ := ih ⟨i, by omega, hSome⟩
        exact ⟨c, digits, by omega, hFound, hSearch⟩

-- ---------------------------------------------------------------------------
-- What is found
-- ---------------------------------------------------------------------------

/-- What is known of the digits and the exponent that are found for a double: they read back, and
they have their point where the double has its own, or one place further if all digits were carried
over. -/
structure IsShortest (u digits : ℕ) (e : ℤ) : Prop where
  roundsTo : RoundsTo (digits * 10 ^ e * unitsPerOne) u
  pos : 0 < digits
  point : digitCount digits + e = decimalExponent u + 1 ∨
    digitCount digits + e = decimalExponent u + 2 ∧
      (digits * 10 ^ e : ℚ) = 10 ^ (decimalExponent u + 1) ∧
      9 * (10 : ℚ) ^ decimalExponent u ≤ ofUnits u

/-- What is found on a grid that has a point at or below the first digit. -/
theorem isShortest_of_onGrid? (hu : 0 < u) (he : decimalExponent u = k + e)
    (hFound : onGrid? u e = some digits) : IsShortest u digits e := by
  obtain ⟨hReads, hBeside⟩ := onGrid?_eq_some hFound
  obtain ⟨hStart, hEnd⟩ := decimalExponent_spec hu
  have hTop : (10 : ℚ) ^ decimalExponent u = 10 ^ k * 10 ^ e := by
    rw [he, zpow_add₀ (by norm_num), zpow_natCast]
  have hNext : (10 : ℚ) ^ (decimalExponent u + 1) = 10 ^ (k + 1) * 10 ^ e := by
    rw [zpow_add_one₀ (by norm_num), hTop, pow_succ]
    ring
  rw [hTop] at hStart
  rw [hNext] at hEnd
  rcases hGrid : onGrid u e with ⟨below, rest⟩
  obtain ⟨hBelow, hAbove, -, -⟩ := onGrid_spec u e hGrid
  rw [hGrid] at hBeside
  have hPow : (0 : ℚ) < 10 ^ e := zpow_pos (by norm_num) e
  have hAtLeast : 10 ^ k ≤ below := by
    have hLess : (10 : ℚ) ^ k < below + 1 :=
      lt_of_mul_lt_mul_right (hStart.trans_lt hAbove) hPow.le
    exact Nat.le_of_lt_succ (by exact_mod_cast hLess)
  have hLess : below < 10 ^ (k + 1) := by
    have hLess : (below : ℚ) < 10 ^ (k + 1) :=
      lt_of_mul_lt_mul_right (hBelow.trans_lt hEnd) hPow.le
    exact_mod_cast hLess
  have hPos : 0 < 10 ^ k := Nat.pow_pos (by decide)
  have hDigits : below ≤ digits ∧ digits ≤ below + 1 := by omega
  refine ⟨(readsBack_iff hu _ _).mp hReads, by omega, ?_⟩
  -- the count of digits is that of the grid, unless rounding up has carried into a new one
  rcases Nat.lt_or_ge digits (10 ^ (k + 1)) with hFits | hCarried
  · left
    have hCount : digitCount digits = k + 1 :=
      Nat.le_antisymm (digitCount_le_iff.mpr hFits) (lt_digitCount_iff.mpr (by omega))
    omega
  · right
    obtain rfl : digits = 10 ^ (k + 1) := by omega
    have hCount : digitCount (10 ^ (k + 1)) = k + 2 := by
      refine Nat.le_antisymm (digitCount_le_iff.mpr ?_) (lt_digitCount_iff.mpr (Nat.le_refl _))
      exact Nat.pow_lt_pow_right (by decide) (by omega)
    have hBelowq : (9 : ℚ) * 10 ^ k ≤ below := by
      have hNat : 9 * 10 ^ k ≤ below := by
        rw [pow_succ] at hCarried hDigits
        omega
      exact_mod_cast hNat
    refine ⟨by omega, by rw [hNext]; push_cast; rfl, ?_⟩
    rw [hTop, ← mul_assoc]
    exact (mul_le_mul_of_nonneg_right hBelowq hPow.le).trans hBelow

theorem shortest_spec (hu : 0 < u) : IsShortest u (shortest u).1 (shortest u).2 := by
  have hLast : (onGrid? u (decimalExponent u - (1 + 16 : ℕ) + 1)).isSome = true := by
    have hSame : decimalExponent u - (1 + 16 : ℕ) + 1 = decimalExponent u - 16 := by omega
    rw [hSame]
    exact onGrid?_seventeen hu
  have hSome : ∃ i < 17, (onGrid? u (decimalExponent u - (1 + i : ℕ) + 1)).isSome = true :=
    ⟨16, by decide, hLast⟩
  obtain ⟨c, digits, hc, hFound, hSearch⟩ := searchGrids_spec hSome
  obtain ⟨k, rfl⟩ := Nat.exists_eq_add_of_le' hc
  rw [shortest, hSearch]
  exact isShortest_of_onGrid? hu (k := k) (by omega) hFound

end

end SparqlSelect.Binary64
