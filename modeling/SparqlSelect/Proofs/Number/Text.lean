import SparqlSelect.Proofs.Number.Shortest

/-!
# How doubles are written

The text of a double is positional from `10 ^ (-4)` up to `10 ^ 16` and has an exponent elsewhere.
Which of the two it is depends on the place of the point, which is that of the double itself unless
all its digits were carried over. Carrying could move a number just below `10 ^ (-4)` up to it, but
no double is that close: the nearest one below is further away than half a gap.

* `lt_point`, `point_le`, `point_le_of_tiny` — where the point of a double is.
* `placePoint_positional`, `placePoint_scientific` — the two forms, and the number that they show.
* `text_spec` — the text of a double.
-/

namespace SparqlSelect.Binary64

section

variable {u digits : ℕ} {e : ℤ}

-- ---------------------------------------------------------------------------
-- Where the point is
-- ---------------------------------------------------------------------------

/-- A double with gaps of at least one is a whole number. -/
theorem whole_of_wide {k : ℕ} (hDouble : gap u ∣ u) (hGap : gap u = 2 ^ k) (hWide : 1074 ≤ k) :
    unitsPerOne ∣ u := by
  obtain ⟨j, rfl⟩ := Nat.exists_eq_add_of_le hWide
  refine dvd_trans ?_ hDouble
  rw [hGap, pow_add, unitsPerOne_eq (Nat.add_zero 1074), Nat.pow_zero, Nat.mul_one]
  exact Nat.dvd_mul_right _ _

/-- A double that is no whole number is less than `2 ^ 52`. -/
theorem ofUnits_lt_of_not_whole (hDouble : gap u ∣ u) (hWhole : ¬ unitsPerOne ∣ u) :
    ofUnits u < 2 ^ 52 := by
  obtain ⟨k, hGap, hHigh, -⟩ := exists_gap u
  have hNarrow : k < 1074 := not_le.mp fun hWide => hWhole (whole_of_wide hDouble hGap hWide)
  obtain ⟨j, hj⟩ := Nat.exists_eq_add_of_le hNarrow
  have hLess : u < 2 ^ 52 * unitsPerOne := by
    rw [unitsPerOne_eq (j := j) (k := k + 1) (by omega), mul_left_comm, ← pow_add]
    refine hHigh.trans_le (Nat.le_trans ?_ (Nat.le_mul_of_pos_left _ (Nat.two_pow_pos j)))
    exact Nat.pow_le_pow_right (by decide) (by omega)
  rw [ofUnits, div_lt_iff₀ unitsPerOne_pos]
  exact_mod_cast hLess

/-- Half a gap above a double of 53 digits that lies below `10 ^ (-4)` is still below it. -/
theorem next_lt {m j : ℕ} (hHigh : m < 2 ^ 53) (hLow : j < 66 → 2 ^ 52 ≤ m)
    (h : m * 10 ^ 4 < 2 ^ j) : (2 * m + 1) * 10 ^ 4 < 2 * 2 ^ j := by
  rcases Nat.lt_trichotomy j 66 with hLess | rfl | hMore
  · have hMost : 2 ^ j ≤ 2 ^ 65 := Nat.pow_le_pow_right (by decide) (by omega)
    linarith [hLow hLess]
  · -- the limit is 7378697629483820.6464 gaps
    have hMost : m ≤ 7378697629483820 :=
      not_lt.mp fun hMore => by linarith [Nat.succ_le_of_lt hMore]
    linarith
  · have hLeast : 2 ^ 67 ≤ 2 ^ j := Nat.pow_le_pow_right (by decide) hMore
    linarith

/-- No number from `10 ^ (-4)` on rounds to a double below it. -/
theorem lt_of_roundsTo {q : ℚ} (hDouble : gap u ∣ u) (hTiny : u * 10 ^ 4 < unitsPerOne)
    (h : RoundsTo q u) : q * 10 ^ 4 < unitsPerOne := by
  obtain ⟨m, k, hu, hGap, hHigh, hLow⟩ := exists_significand hDouble
  -- what rounds to `u` lies below the middle to its next neighbour, so that one is compared
  suffices hNext : (2 * m + 1) * 2 ^ k * 10 ^ 4 < 2 * unitsPerOne by
    have hNextq : ((2 * m + 1) * 2 ^ k * 10 ^ 4 : ℚ) < 2 * unitsPerOne := by exact_mod_cast hNext
    have hEnd := h.2.1
    rw [hGap, hu] at hEnd
    push_cast at hEnd
    linarith
  have hPow : 0 < 2 ^ k := Nat.two_pow_pos k
  -- a double with so wide a gap is a whole number, and a tiny one is none
  have hNarrow : k < 1074 := by
    by_contra hWide
    have hWhole := whole_of_wide hDouble hGap (Nat.not_lt.mp hWide)
    have hZero : u = 0 := Nat.eq_zero_of_dvd_of_lt hWhole (by omega)
    have hSome : 0 < m * 2 ^ k :=
      Nat.mul_pos (Nat.lt_of_lt_of_le (by decide) (hLow.resolve_left (by omega))) hPow
    omega
  obtain ⟨j, hj⟩ := Nat.exists_eq_add_of_le hNarrow.le
  have hOne := unitsPerOne_eq (j := j) (k := k) (by omega)
  rw [hu, hOne, Nat.mul_right_comm] at hTiny
  rw [hOne, ← mul_assoc, Nat.mul_right_comm]
  refine Nat.mul_lt_mul_of_pos_right ?_ hPow
  exact next_lt hHigh (fun hj => hLow.resolve_left (by omega))
    (Nat.lt_of_mul_lt_mul_right hTiny)

theorem pow_lt_of_lt {m n : ℤ} {x : ℚ} (hLow : (10 : ℚ) ^ m ≤ x) (hHigh : x < 10 ^ n) : m < n :=
  (zpow_lt_zpow_iff_right₀ (by norm_num)).mp (hLow.trans_lt hHigh)

theorem ofUnits_lt_of_tiny (hTiny : u * 10 ^ 4 < unitsPerOne) : ofUnits u < 10 ^ (-4 : ℤ) := by
  have hTinyq : (u : ℚ) * 10 ^ 4 < unitsPerOne := by exact_mod_cast hTiny
  rw [ofUnits, div_lt_iff₀ unitsPerOne_pos]
  norm_num
  linarith

/-- From `10 ^ (-4)` on, the point is not far to the left. -/
theorem lt_point (h : IsShortest u digits e) (hLarge : unitsPerOne ≤ u * 10 ^ 4) :
    -4 < digitCount digits + e := by
  have hu : 0 < u := by
    rcases Nat.eq_zero_or_pos u with rfl | hu
    · exact absurd hLarge (Nat.not_le.mpr (by rw [Nat.zero_mul]; exact zero_lt_unitsPerOne))
    · exact hu
  have hLargeq : (unitsPerOne : ℚ) ≤ u * 10 ^ 4 := by exact_mod_cast hLarge
  have hNumber : (10 : ℚ) ^ (-4 : ℤ) ≤ ofUnits u := by
    rw [ofUnits, le_div_iff₀ unitsPerOne_pos]
    norm_num
    linarith
  have hTop := pow_lt_of_lt hNumber (decimalExponent_spec hu).2
  rcases h.point with hPoint | ⟨hPoint, -⟩ <;> omega

/-- The point of a double that is no whole number is not far to the right. -/
theorem point_le (hu : 0 < u) (hDouble : gap u ∣ u) (hWhole : ¬ unitsPerOne ∣ u)
    (h : IsShortest u digits e) : digitCount digits + e ≤ 16 := by
  have hNumber := ofUnits_lt_of_not_whole hDouble hWhole
  rcases h.point with hPoint | ⟨hPoint, -, hCarried⟩
  · have hTop : decimalExponent u < 16 :=
      pow_lt_of_lt (decimalExponent_spec hu).1 (hNumber.trans (by norm_num))
    omega
  · have hTop : decimalExponent u < 15 :=
      pow_lt_of_lt (le_refl _) (by norm_num at hNumber ⊢; linarith)
    omega

/-- The point of a double below `10 ^ (-4)` is far to the left. -/
theorem point_le_of_tiny (hu : 0 < u) (hDouble : gap u ∣ u) (hTiny : u * 10 ^ 4 < unitsPerOne)
    (h : IsShortest u digits e) : digitCount digits + e ≤ -4 := by
  rcases h.point with hPoint | ⟨hPoint, hCarried, -⟩
  · have hTop := pow_lt_of_lt (decimalExponent_spec hu).1 (ofUnits_lt_of_tiny hTiny)
    omega
  · -- the power of ten that was reached by carrying rounds to the double
    have hReached := lt_of_roundsTo hDouble hTiny (hCarried ▸ h.roundsTo)
    have hPower : (10 : ℚ) ^ (decimalExponent u + 1) < 10 ^ (-4 : ℤ) := by
      have hOne := unitsPerOne_pos
      have hScaled : (10 : ℚ) ^ (decimalExponent u + 1) * 10 ^ 4 < 1 := by
        rw [mul_right_comm] at hReached
        exact lt_of_mul_lt_mul_right (hReached.trans_eq (one_mul _).symm) hOne.le
      norm_num
      linarith
    have hTop := pow_lt_of_lt (le_refl _) hPower
    omega

end

-- ---------------------------------------------------------------------------
-- Runs of digits
-- ---------------------------------------------------------------------------

/-- A text that is made of digits only. -/
def AllDigits (s : List Char) : Prop := ∀ c ∈ s, c.isDigit = true

section

variable {u n : ℕ} {s t ds : List Char} {point : ℤ}

theorem AllDigits.append (h : AllDigits s) (h' : AllDigits t) : AllDigits (s ++ t) :=
  List.forall_mem_append.mpr ⟨h, h'⟩

theorem AllDigits.sublist (h : AllDigits t) (hSub : s.Sublist t) : AllDigits s :=
  fun c hc => h c (hSub.subset hc)

theorem allDigits_zeros (n : ℕ) : AllDigits (List.replicate n '0') := by
  intro c hc
  rw [List.eq_of_mem_replicate hc]
  rfl

theorem allDigits_toDigits (n : ℕ) : AllDigits (Nat.toDigits 10 n) :=
  fun _ => Nat.isDigit_of_mem_toDigits (by decide) (by decide)

/-- What the text of a double is made of. -/
def isNumeralPart (c : Char) : Bool := c.isDigit || ['-', '+', '.', 'e'].contains c

theorem AllDigits.numeralParts (h : AllDigits s) : ∀ c ∈ s, isNumeralPart c = true :=
  fun c hc => Bool.or_eq_true_iff.mpr (.inl (h c hc))

/-- The number that digits stand for. -/
def numeral (s : List Char) : ℕ := Nat.ofDigitChars 10 s 0

theorem numeral_append (s t : List Char) :
    numeral (s ++ t) = numeral s * 10 ^ t.length + numeral t := by
  rw [numeral, Nat.ofDigitChars_append, Nat.ofDigitChars_eq_ofDigitChars_zero, Nat.mul_comm]
  rfl

theorem numeral_cons (c : Char) (s : List Char) :
    numeral (c :: s) = (c.toNat - '0'.toNat) * 10 ^ s.length + numeral s := by
  have hSplit := numeral_append [c] s
  have hDigit : numeral [c] = c.toNat - '0'.toNat := by simp [numeral, Nat.ofDigitChars]
  rwa [hDigit, List.singleton_append] at hSplit

theorem numeral_zeros (n : ℕ) : numeral (List.replicate n '0') = 0 := by
  simp [numeral]

theorem numeral_toDigits (n : ℕ) : numeral (Nat.toDigits 10 n) = n :=
  Nat.ofDigitChars_ten_toDigits

/-- The text of an integer: its sign and its digits. -/
theorem toList_toString_int (i : ℤ) :
    (toString i).toList =
      (if decide (i < 0) = true then ['-'] else []) ++ Nat.toDigits 10 i.natAbs := by
  cases i with
  | ofNat m =>
    have hText : (toString (Int.ofNat m)).toList = (Nat.repr m).toList := rfl
    rw [hText, Nat.toList_repr]
    simp
  | negSucc m =>
    have hText : (toString (Int.negSucc m)).toList = ("-" ++ Nat.repr (m + 1)).toList := rfl
    rw [hText, String.toList_append, Nat.toList_repr]
    simp [Int.negSucc_lt_zero]

/-- A text is what is left without the zeros at its end, and these zeros. -/
theorem withoutTrailingZeros_append (s : List Char) :
    ∃ n, s = withoutTrailingZeros s ++ List.replicate n '0' := by
  have hZeros : ∃ n, s.reverse.takeWhile (· == '0') = List.replicate n '0' :=
    ⟨_, List.eq_replicate_length.mpr fun c hc =>
      beq_iff_eq.mp (List.all_eq_true.mp List.all_takeWhile c hc)⟩
  obtain ⟨n, hZeros⟩ := hZeros
  have hSplit : s.reverse.takeWhile (· == '0') ++ s.reverse.dropWhile (· == '0') = s.reverse :=
    List.takeWhile_append_dropWhile
  have hReversed := congrArg List.reverse hSplit
  rw [hZeros, List.reverse_append, List.reverse_reverse, List.reverse_replicate] at hReversed
  exact ⟨n, hReversed.symm⟩

-- ---------------------------------------------------------------------------
-- The two forms
-- ---------------------------------------------------------------------------

/-- Near its digits, the point stands between digits. -/
theorem placePoint_positional (hDigits : AllDigits ds) (hSome : ds ≠ [])
    (hPoint : -4 < point ∧ point ≤ 16) :
    ∃ whole part, placePoint ds point = whole ++ '.' :: part ∧ whole ≠ [] ∧ part ≠ [] ∧
      AllDigits whole ∧ AllDigits part ∧
      (numeral (whole ++ part) * 10 ^ (-part.length : ℤ) : ℚ) =
        numeral ds * 10 ^ (point - ds.length) := by
  have hNear : (decide (-4 < point) && decide (point ≤ 16)) = true := by simp [hPoint]
  rw [placePoint, if_pos hNear]
  -- the point stands before the digits, inside them, or behind them
  by_cases hLeft : point ≤ 0
  · obtain ⟨n, rfl⟩ : ∃ n : ℕ, point = -n := ⟨(-point).toNat, by omega⟩
    rw [if_pos hLeft, neg_neg, Int.toNat_natCast]
    refine ⟨['0'], List.replicate n '0' ++ ds, by simp, by simp, by simp [hSome],
      allDigits_zeros 1, (allDigits_zeros n).append hDigits, ?_⟩
    have hNumber : numeral (['0'] ++ (List.replicate n '0' ++ ds)) = numeral ds := by
      rw [← List.append_assoc, numeral_append]
      simp [← List.replicate_succ, numeral_zeros]
    rw [hNumber]
    congr 2
    simp
    ring
  · obtain ⟨n, rfl⟩ : ∃ n : ℕ, point = n := ⟨point.toNat, by omega⟩
    rw [if_neg hLeft, Int.toNat_natCast]
    have hSplit : ds.take n ++ ds.drop n = ds := List.take_append_drop n ds
    rcases Nat.lt_or_ge n ds.length with hInside | hBehind
    · have hLength : (ds.take n).length = n := List.length_take_of_le hInside.le
      have hPart : ds.drop n ≠ [] := by simp [hInside]
      refine ⟨ds.take n, ds.drop n, by simp [hLength, hPart], ?_, hPart,
        hDigits.sublist (List.take_sublist n ds), hDigits.sublist (List.drop_sublist n ds), ?_⟩
      · rw [← List.length_pos_iff, hLength]
        omega
      · rw [hSplit, List.length_drop]
        congr 2
        omega
    · have hTake : ds.take n = ds := List.take_of_length_le hBehind
      have hDrop : ds.drop n = [] := List.drop_of_length_le hBehind
      obtain ⟨k, rfl⟩ := Nat.exists_eq_add_of_le hBehind
      refine ⟨ds ++ List.replicate k '0', ['0'], by simp [hTake, hDrop], by simp [hSome],
        by simp, hDigits.append (allDigits_zeros k), allDigits_zeros 1, ?_⟩
      have hNumber : numeral (ds ++ List.replicate k '0' ++ ['0']) = numeral ds * 10 ^ (k + 1) := by
        rw [List.append_assoc, numeral_append, ← List.replicate_succ', numeral_zeros]
        simp
      rw [hNumber]
      push_cast
      rw [add_sub_cancel_left, List.length_singleton, Nat.cast_one, zpow_neg_one, zpow_natCast,
        pow_succ, ← mul_assoc, mul_assoc _ 10, mul_inv_cancel₀ (by norm_num), mul_one]

/-- Far from its digits, the point stands behind the first one, and an exponent behind all. -/
theorem placePoint_scientific (hSome : ds ≠ []) (hPoint : ¬ (-4 < point ∧ point ≤ 16)) :
    ∃ d rest places, ds = d :: rest ∧ AllDigits places ∧ places ≠ [] ∧
      numeral places = (point - 1).natAbs ∧
      placePoint ds point = d :: ((if rest = [] then [] else '.' :: rest) ++
        'e' :: (if point - 1 < 0 then '-' else '+') :: places) := by
  have hFar : ¬ (decide (-4 < point) && decide (point ≤ 16)) = true := by
    simpa using not_and.mp hPoint
  obtain ⟨d, rest, rfl⟩ := List.exists_cons_of_ne_nil hSome
  rw [placePoint, if_neg hFar]
  refine ⟨d, rest, if (Nat.toDigits 10 (point - 1).natAbs).length < 2 then
    '0' :: Nat.toDigits 10 (point - 1).natAbs else Nat.toDigits 10 (point - 1).natAbs, rfl,
    ?_, ?_, ?_, ?_⟩
  · split_ifs
    · exact (allDigits_zeros 1).append (allDigits_toDigits _)
    · exact allDigits_toDigits _
  · split_ifs
    · simp
    · exact Nat.toDigits_ne_nil
  · -- a single digit of the exponent has a zero in front of it
    split_ifs
    · have hZero := numeral_append ['0'] (Nat.toDigits 10 (point - 1).natAbs)
      rw [List.singleton_append, numeral_toDigits] at hZero
      have hNothing : numeral ['0'] = 0 := numeral_zeros 1
      rw [hZero, hNothing, Nat.zero_mul, Nat.zero_add]
    · exact numeral_toDigits _
  · cases rest <;> simp

/-- The text of a positive double: its sign, and its digits with the point where it is. -/
theorem text_spec (hu : 0 < u) (s : Bool) :
    ∃ ds point, (text (.finite s u)).toList = (if s then ['-'] else []) ++ placePoint ds point ∧
      ds ≠ [] ∧ AllDigits ds ∧ point = digitCount (shortest u).1 + (shortest u).2 ∧
      (numeral ds * 10 ^ (point - ds.length) : ℚ) = (shortest u).1 * 10 ^ (shortest u).2 := by
  have hPos := (shortest_spec hu).pos
  have hNonzero : ¬ (u == 0) = true := by
    rw [beq_iff_eq]
    omega
  rw [text, if_neg hNonzero]
  generalize shortest u = found at hPos
  obtain ⟨digits, e⟩ := found
  have hCount : digitCount digits = (Nat.toDigits 10 digits).length := by
    rw [digitCount, if_neg (Nat.pos_iff_ne_zero.mp hPos)]
  -- the digits without the zeros at their end, which the exponent makes up for
  obtain ⟨n, hAll⟩ := withoutTrailingZeros_append (Nat.toDigits 10 digits)
  have hNumber : numeral (withoutTrailingZeros (Nat.toDigits 10 digits)) * 10 ^ n = digits := by
    have hWhole := congrArg numeral hAll
    rw [numeral_toDigits, numeral_append, numeral_zeros, List.length_replicate] at hWhole
    exact hWhole.symm
  have hLength := congrArg List.length hAll
  rw [List.length_append, List.length_replicate] at hLength
  refine ⟨withoutTrailingZeros (Nat.toDigits 10 digits), (Nat.toDigits 10 digits).length + e,
    String.toList_ofList, ?_, ?_, by rw [hCount], ?_⟩
  · intro hNone
    rw [hNone] at hNumber
    simp [numeral] at hNumber
    omega
  · have hDigits := allDigits_toDigits digits
    rw [hAll] at hDigits
    exact hDigits.sublist (List.sublist_append_left _ _)
  · have hExponent : ((Nat.toDigits 10 digits).length + e -
        (withoutTrailingZeros (Nat.toDigits 10 digits)).length : ℤ) = n + e := by omega
    have hNumberq : (numeral (withoutTrailingZeros (Nat.toDigits 10 digits)) * 10 ^ n : ℚ) =
        digits := by exact_mod_cast hNumber
    rw [hExponent, zpow_add₀ (by norm_num), zpow_natCast, ← mul_assoc, hNumberq]

end

end SparqlSelect.Binary64
