import SparqlSelect.Number.Reader
import SparqlSelect.Proofs.Number.Text

/-!
# The texts of numbers are read back

The text of a double is a number in free text, and it reads as the double itself. The reader finds
the digits and the exponent that the writer placed, whichever of the two forms it chose, and what
they stand for rounds to the double. The text of an integer reads as the double nearest to it.

* `digits?_of_allDigits` — a run of digits is read as the number that it stands for.
* `decimal?_part`, `decimal?_whole` — decimals with and without a fraction.
* `ofDecimal_of_roundsTo` — digits that round to a double are read as it.
* `readDouble?_text`, `readDouble?_toString` — doubles and integers are read back.
-/

namespace SparqlSelect

open Binary64

namespace NumberText

section

variable {ds : Digits} {s rest whole part places : List Char} {c : Char} {negative : Bool} {e : ℤ}

-- ---------------------------------------------------------------------------
-- Runs of digits
-- ---------------------------------------------------------------------------

/-- No run of digits goes on here. -/
def StopsDigits (s : List Char) : Prop := ∀ c ∈ s.head?, decimalValue? c = none ∧ c ≠ '_'

theorem stopsDigits_nil : StopsDigits [] := nofun

theorem stopsDigits_cons (hNone : decimalValue? c = none) (hOther : c ≠ '_') (s : List Char) :
    StopsDigits (c :: s) := by
  rintro _ ⟨⟩
  exact ⟨hNone, hOther⟩

theorem digitsAfter_of_stops (h : StopsDigits rest) : digitsAfter ds rest = (ds, rest) := by
  cases rest with
  | nil => rfl
  | cons c t =>
    obtain ⟨hNone, hOther⟩ := h c rfl
    rw [digitsAfter.eq_def]
    simp only [hNone]
    split
    · exact absurd rfl hOther
    · rfl

theorem digitsAfter_of_allDigits (h : AllDigits s) (hStops : StopsDigits rest) :
    digitsAfter ds (s ++ rest) =
      (⟨ds.value * 10 ^ s.length + numeral s, ds.count + s.length⟩, rest) := by
  induction s generalizing ds with
  | nil =>
    rw [List.nil_append, digitsAfter_of_stops hStops]
    simp [numeral]
  | cons c s ih =>
    obtain ⟨hc, hs⟩ := List.forall_mem_cons.mp h
    rw [List.cons_append, digitsAfter.eq_def]
    simp only [decimalValue?_of_isDigit hc]
    rw [ih hs, numeral_cons, List.length_cons, Digits.push, pow_succ]
    congr 2
    · ring
    · ring

/-- A run of digits is read as the number that it stands for. -/
theorem digits?_of_allDigits (h : AllDigits s) (hSome : s ≠ []) (hStops : StopsDigits rest) :
    digits? (s ++ rest) = some (⟨numeral s, s.length⟩, rest) := by
  obtain ⟨c, t, rfl⟩ := List.exists_cons_of_ne_nil hSome
  obtain ⟨hc, ht⟩ := List.forall_mem_cons.mp h
  rw [List.cons_append, digits?, decimalValue?_of_isDigit hc, Option.map_some,
    digitsAfter_of_allDigits ht hStops, numeral_cons, List.length_cons]
  simp only [Digits.push]
  congr 3
  · ring
  · ring

-- ---------------------------------------------------------------------------
-- Signs, names and exponents
-- ---------------------------------------------------------------------------

theorem sign_of_digit (hc : c.isDigit = true) (negative : Bool) (s : List Char) :
    sign ((if negative then ['-'] else []) ++ c :: s) = (negative, c :: s) := by
  cases negative with
  | true => rfl
  | false =>
    simp only [Bool.false_eq_true, if_false, List.nil_append]
    rw [sign.eq_def]
    split
    · rename_i h
      cases h
      cases hc
    · rename_i h
      cases h
      cases hc
    · rfl

theorem toLower_of_isDigit (hc : c.isDigit = true) : c.toLower = c := by
  have hUpper : ¬ (c.val ≥ 'A'.val ∧ c.val ≤ 'Z'.val) := by
    simp only [Char.isDigit, Bool.and_eq_true, decide_eq_true_eq] at hc
    rintro ⟨hLow, -⟩
    exact absurd (UInt32.le_trans hLow hc.2) (by decide)
  exact dif_neg hUpper

/-- No number is called by a name that starts with a digit. -/
theorem named?_of_digit (hc : c.isDigit = true) (negative : Bool) (s : List Char) :
    named? negative (c :: s) = none := by
  have hStart {d : Char} {t : List Char} (hd : d.isDigit = false) :
      String.ofList ((c :: s).map Char.toLower) ≠ String.ofList (d :: t) := by
    intro hSame
    have hHead := congrArg List.head? (String.ofList_injective hSame)
    rw [List.map_cons, List.head?_cons, List.head?_cons, toLower_of_isDigit hc] at hHead
    obtain rfl := Option.some.inj hHead
    rw [hc] at hd
    cases hd
  -- every name that stands for a number starts with a letter
  rw [named?]
  split
  · rename_i h
    exact absurd h (hStart (d := 'i') (t := ['n', 'f']) rfl)
  · rename_i h
    exact absurd h (hStart (d := 'i') (t := "nfinity".toList) rfl)
  · rename_i h
    exact absurd h (hStart (d := 'n') (t := ['a', 'n']) rfl)
  · rfl

/-- A text behind the digits of a number is read as its exponent. -/
structure IsExponent (t : List Char) (e : ℤ) : Prop where
  reads : exponent? t = some e
  stops : StopsDigits t
  noPoint : t.head? ≠ some '.'
  parts : ∀ c ∈ t, isNumeralPart c = true

theorem isExponent_nil : IsExponent [] 0 := ⟨rfl, stopsDigits_nil, nofun, nofun⟩

theorem isExponent_places (h : AllDigits places) (hSome : places ≠ [])
    (hExponent : numeral places = e.natAbs) :
    IsExponent ('e' :: (if e < 0 then '-' else '+') :: places) e where
  reads := by
    have hDigits := digits?_of_allDigits h hSome stopsDigits_nil
    rw [List.append_nil] at hDigits
    split_ifs with hNegative
    · simp [exponent?, sign, hDigits, hExponent, abs_of_neg hNegative]
    · simp [exponent?, sign, hDigits, hExponent, abs_of_nonneg (not_lt.mp hNegative)]
  stops := stopsDigits_cons (by decide) (by decide) _
  noPoint := by simp
  parts := by
    refine List.forall_mem_cons.mpr ⟨rfl, List.forall_mem_cons.mpr ⟨?_, h.numeralParts⟩⟩
    split_ifs <;> rfl

-- ---------------------------------------------------------------------------
-- Decimals
-- ---------------------------------------------------------------------------

/-- Digits without a fraction. -/
theorem decimal?_whole (negative : Bool) (hWhole : AllDigits whole) (hSome : whole ≠ [])
    (hRest : IsExponent rest e) :
    decimal? negative (whole ++ rest) = some (.ofDecimal negative (numeral whole) e) := by
  simp only [decimal?, digits?_of_allDigits hWhole hSome hRest.stops]
  split
  · exact absurd rfl hRest.noPoint
  · simp only [Option.map_some, Option.bind_eq_bind, Option.bind_some, hRest.reads]
    simp [tenTo_eq]

/-- Digits with a fraction. -/
theorem decimal?_part (negative : Bool) (hWhole : AllDigits whole) (hSome : whole ≠ [])
    (hPart : AllDigits part) (hSome' : part ≠ []) (hRest : IsExponent rest e) :
    decimal? negative (whole ++ '.' :: (part ++ rest)) =
      some (.ofDecimal negative (numeral (whole ++ part)) (e - part.length)) := by
  have hPoint : StopsDigits ('.' :: (part ++ rest)) := stopsDigits_cons (by decide) (by decide) _
  simp only [decimal?, digits?_of_allDigits hWhole hSome hPoint, fraction?,
    digits?_of_allDigits hPart hSome' hRest.stops, Option.bind_eq_bind, Option.bind_some,
    hRest.reads]
  simp [tenTo_eq, numeral_append]

/-- A text starts with a digit and is read as a decimal of this value. -/
structure ReadsAs (t : List Char) (q : ℚ) : Prop where
  start : ∃ c rest, t = c :: rest ∧ c.isDigit = true
  parts : ∀ c ∈ t, isNumeralPart c = true
  reads : ∀ negative, ∃ n e, decimal? negative t = some (.ofDecimal negative n e) ∧
    (n * 10 ^ e : ℚ) = q

theorem exists_digit_of_allDigits (h : AllDigits whole) (hSome : whole ≠ []) (rest : List Char) :
    ∃ c t, whole ++ rest = c :: t ∧ c.isDigit = true := by
  obtain ⟨c, t, rfl⟩ := List.exists_cons_of_ne_nil hSome
  exact ⟨c, t ++ rest, rfl, h c List.mem_cons_self⟩

theorem readsAs_whole (hWhole : AllDigits whole) (hSome : whole ≠ []) (hRest : IsExponent rest e) :
    ReadsAs (whole ++ rest) (numeral whole * 10 ^ e) where
  start := exists_digit_of_allDigits hWhole hSome rest
  parts := List.forall_mem_append.mpr ⟨hWhole.numeralParts, hRest.parts⟩
  reads negative := ⟨_, _, decimal?_whole negative hWhole hSome hRest, rfl⟩

theorem readsAs_part (hWhole : AllDigits whole) (hSome : whole ≠ []) (hPart : AllDigits part)
    (hSome' : part ≠ []) (hRest : IsExponent rest e) :
    ReadsAs (whole ++ '.' :: (part ++ rest))
      (numeral (whole ++ part) * 10 ^ (e - part.length)) where
  start := exists_digit_of_allDigits hWhole hSome _
  parts := by
    have hTail : ∀ c ∈ part ++ rest, isNumeralPart c = true :=
      List.forall_mem_append.mpr ⟨hPart.numeralParts, hRest.parts⟩
    exact List.forall_mem_append.mpr
      ⟨hWhole.numeralParts, List.forall_mem_cons.mpr ⟨rfl, hTail⟩⟩
  reads negative := ⟨_, _, decimal?_part negative hWhole hSome hPart hSome' hRest, rfl⟩

/-- Digits with a point somewhere near or far are read as what they stand for. -/
theorem readsAs_placePoint {digits : List Char} (hDigits : AllDigits digits) (hSome : digits ≠ [])
    (point : ℤ) :
    ReadsAs (placePoint digits point) (numeral digits * 10 ^ (point - digits.length)) := by
  -- near the point the text has two runs of digits, far from it one, a part and an exponent
  by_cases hNear : -4 < point ∧ point ≤ 16
  · obtain ⟨whole, part, hPlaced, hWhole, hPart, hWholes, hParts, hNumber⟩ :=
      placePoint_positional hDigits hSome hNear
    have hRead := readsAs_part hWholes hWhole hParts hPart isExponent_nil
    rwa [List.append_nil, zero_sub, hNumber, ← hPlaced] at hRead
  · obtain ⟨d, part, places, rfl, hPlaces, hPlace, hExponent, hPlaced⟩ :=
      placePoint_scientific hSome hNear
    obtain ⟨hd, hPart⟩ := List.forall_mem_cons.mp hDigits
    have hFirst : AllDigits [d] := List.forall_mem_singleton.mpr hd
    have hTail := isExponent_places hPlaces hPlace hExponent
    rw [hPlaced]
    by_cases hNone : part = []
    · subst hNone
      exact readsAs_whole hFirst (List.cons_ne_nil _ _) hTail
    · have hRead := readsAs_part hFirst (List.cons_ne_nil _ _) hPart hNone hTail
      rw [if_neg hNone, List.length_cons]
      push_cast
      rwa [add_comm, ← sub_sub]

-- ---------------------------------------------------------------------------
-- Free text
-- ---------------------------------------------------------------------------

theorem isNumberBlank_of_numeralPart (h : isNumeralPart c = true) : isNumberBlank c = false := by
  -- a digit lies above all the blanks in the table of characters, a mark is compared with each
  rcases Bool.or_eq_true_iff.mp h with hDigit | hMark
  · have hRange : 48 ≤ c.toNat ∧ c.toNat ≤ 57 := by
      simp only [Char.isDigit, Bool.and_eq_true, decide_eq_true_eq] at hDigit
      exact ⟨UInt32.le_iff_toNat_le.mp hDigit.1, UInt32.le_iff_toNat_le.mp hDigit.2⟩
    have hBlanks : (['\t', '\n', '\x0b', '\x0c', '\r', ' '].all (·.toNat < 48)) = true := by decide
    have hSmall : c.toNat < 127 := by omega
    rw [isNumberBlank, if_pos hSmall, Bool.eq_false_iff]
    intro hBlank
    have hLess := List.all_eq_true.mp hBlanks c (List.contains_iff_mem.mp hBlank)
    rw [decide_eq_true_iff] at hLess
    omega
  · have hMarks : (['-', '+', '.', 'e'].all (!isNumberBlank ·)) = true := by decide
    have hMark := List.all_eq_true.mp hMarks c (List.contains_iff_mem.mp hMark)
    rwa [Bool.not_eq_true'] at hMark

/-- A text that starts with a digit behind its sign is read as a decimal. -/
theorem readDouble?_of_digit {text : String} (hc : c.isDigit = true)
    (hParts : ∀ d ∈ c :: s, isNumeralPart d = true)
    (hText : text.toList = (if negative then ['-'] else []) ++ c :: s) :
    readDouble? text = decimal? negative (c :: s) := by
  have hSign : ∀ d ∈ (if negative then ['-'] else []), isNumberBlank d = false := by
    cases negative with
    | true => exact List.forall_mem_singleton.mpr rfl
    | false => exact List.forall_mem_nil _
  have hNone : ∀ d ∈ text.toList, isNumberBlank d = false := by
    rw [hText, List.forall_mem_append]
    exact ⟨hSign, fun d hd => isNumberBlank_of_numeralPart (hParts d hd)⟩
  rw [readDouble?, trimBoth_of_none hNone, hText, sign_of_digit hc]
  simp only [named?_of_digit hc]
  rfl

end

end NumberText

namespace Binary64

open NumberText

section

variable {u n d : ℕ} {e : ℤ} {s : Bool} {x : Binary64}

-- ---------------------------------------------------------------------------
-- Decimals that round to a double
-- ---------------------------------------------------------------------------

/-- What rounds to a double is neither less than half of it nor more than twice as much. -/
theorem RoundsTo.bounds {q : ℚ} (hu : 0 < u) (h : RoundsTo q u) : (u : ℚ) / 2 ≤ q ∧ q ≤ 2 * u := by
  have hGap : (gap u : ℚ) ≤ u := by exact_mod_cast gap_le hu
  have hBelow := gapBelow_le u
  obtain ⟨hLow, hHigh, -⟩ := h
  exact ⟨by linarith, by linarith⟩

/-- A decimal lies between two powers of ten that its digits tell. -/
theorem digitCount_spec (hn : 0 < n) (e : ℤ) :
    (10 : ℚ) ^ (digitCount n + e - 1) ≤ n * 10 ^ e ∧
      (n * 10 ^ e : ℚ) < 10 ^ (digitCount n + e) := by
  have hPow : (0 : ℚ) < 10 ^ e := zpow_pos (by norm_num) e
  obtain ⟨k, hk⟩ : ∃ k, digitCount n = k + 1 := by
    refine Nat.exists_eq_succ_of_ne_zero fun hNone => ?_
    have hLess := digitCount_le_iff.mp hNone.le
    simp only [Nat.pow_zero] at hLess
    omega
  have hLow : (10 ^ k : ℚ) ≤ n := by
    exact_mod_cast lt_digitCount_iff.mp (Nat.lt_of_lt_of_eq (Nat.lt_succ_self k) hk.symm)
  have hHigh : (n : ℚ) < 10 ^ (k + 1) := by exact_mod_cast digitCount_le_iff.mp hk.le
  have hExponent : ((k + 1 : ℕ) + e - 1 : ℤ) = k + e := by omega
  rw [hk, hExponent, zpow_add₀ (by norm_num), zpow_add₀ (by norm_num), zpow_natCast, zpow_natCast]
  exact ⟨mul_le_mul_of_nonneg_right hLow hPow.le, mul_lt_mul_of_pos_right hHigh hPow⟩

theorem nearest_of_roundsTo (s : Bool) (hd : 0 < d) (hDouble : gap u ∣ u) (hRange : u < unitLimit)
    (h : RoundsTo (n / d) u) : nearest s n d = .finite s u := by
  rw [nearest, nearestUnits_eq hd hDouble h]
  exact if_pos hRange

/-- A decimal that rounds to a double is far from the limits beyond which no power is computed. -/
theorem RoundsTo.near {limit : ℕ} (hLimit : 2 * limit ≤ 10 ^ 400 * unitsPerOne) (hu : 0 < u)
    (hRange : u < limit) (h : RoundsTo (n * 10 ^ e * unitsPerOne) u) :
    0 < n ∧ -400 ≤ digitCount n + e ∧ digitCount n + e ≤ 400 := by
  -- the number is within a factor of two of the double, and so within the powers of ten
  obtain ⟨hLow, hHigh⟩ := h.bounds hu
  have huq : (1 : ℚ) ≤ u := by exact_mod_cast hu
  have hn : 0 < n := by
    rcases Nat.eq_zero_or_pos n with rfl | hn
    · simp only [Nat.cast_zero, zero_mul] at hLow
      linarith
    · exact hn
  obtain ⟨hFirst, hNext⟩ := digitCount_spec hn e
  have hNumber : (0 : ℚ) ≤ n * 10 ^ e :=
    mul_nonneg (Nat.cast_nonneg n) (zpow_pos (by norm_num) e).le
  have hPow : (0 : ℚ) < 10 ^ (330 : ℤ) := zpow_pos (by norm_num) _
  have hOneq : (2 : ℚ) * unitsPerOne ≤ 10 ^ 330 := by exact_mod_cast two_mul_unitsPerOne_le
  have hLimitq : (2 : ℚ) * limit ≤ 10 ^ 400 * unitsPerOne := by exact_mod_cast hLimit
  have hRangeq : (u : ℚ) < limit := by exact_mod_cast hRange
  have hLeast : (10 : ℚ) ^ (-330 : ℤ) ≤ n * 10 ^ e := by
    have hScaled : (1 : ℚ) ≤ n * 10 ^ e * 10 ^ 330 := by
      calc (1 : ℚ) ≤ n * 10 ^ e * unitsPerOne * 2 := by linarith
        _ = n * 10 ^ e * (2 * unitsPerOne) := by ring
        _ ≤ n * 10 ^ e * 10 ^ 330 := mul_le_mul_of_nonneg_left hOneq hNumber
    rw [zpow_neg, inv_le_iff_one_le_mul₀ hPow]
    exact_mod_cast hScaled
  have hMost : (n * 10 ^ e : ℚ) < 10 ^ (400 : ℤ) := by
    have hScaled : (n * 10 ^ e * unitsPerOne : ℚ) < 10 ^ 400 * unitsPerOne :=
      hHigh.trans_lt ((mul_lt_mul_of_pos_left hRangeq two_pos).trans_le hLimitq)
    exact_mod_cast lt_of_mul_lt_mul_right hScaled unitsPerOne_pos.le
  have hAbove := pow_lt_of_lt hLeast hNext
  have hBelow := pow_lt_of_lt hFirst hMost
  omega

/-- Digits that round to a double are read as it. -/
theorem ofDecimal_of_roundsTo (s : Bool) (hu : 0 < u) (hDouble : gap u ∣ u)
    (hRange : u < unitLimit) (h : RoundsTo (n * 10 ^ e * unitsPerOne) u) :
    ofDecimal s n e = .finite s u := by
  obtain ⟨hn, hAbove, hBelow⟩ := h.near two_mul_unitLimit_le hu hRange
  unfold ofDecimal
  dsimp only
  rw [if_neg (by simp; omega), if_neg (by omega)]
  -- a whole number, or a quotient by a power of ten
  cases e with
  | ofNat e =>
    refine nearest_of_roundsTo s Nat.one_pos hDouble hRange ?_
    simp only [tenTo_eq]
    push_cast
    rwa [div_one, ← zpow_natCast]
  | negSucc e =>
    refine nearest_of_roundsTo s (tenTo_pos _) hDouble hRange ?_
    rw [zpow_negSucc] at h
    simp only [tenTo_eq]
    push_cast
    rwa [div_eq_mul_inv, mul_right_comm]

-- ---------------------------------------------------------------------------
-- Texts of numbers
-- ---------------------------------------------------------------------------

/-- A double is read back from its text. -/
theorem readDouble?_text (h : x.isDouble = true) : readDouble? x.text = some x := by
  -- names and zero are read as they stand, other doubles go through their digits
  cases x with
  | nan => rfl
  | infinite s => cases s <;> rfl
  | finite s u =>
    obtain ⟨hDouble, hRange⟩ := isDouble_finite_iff.mp h
    rcases Nat.eq_zero_or_pos u with rfl | hu
    · cases s <;> rfl
    · obtain ⟨ds, point, hText, hSome, hDigits, -, hNumber⟩ := text_spec hu s
      obtain ⟨⟨c, t, hStart, hc⟩, hParts, hReads⟩ := readsAs_placePoint hDigits hSome point
      obtain ⟨n, e, hRead, hSame⟩ := hReads s
      rw [hStart] at hText hParts hRead
      rw [readDouble?_of_digit hc hParts hText, hRead]
      refine congrArg some (ofDecimal_of_roundsTo s hu hDouble hRange ?_)
      rw [hSame, hNumber]
      exact (shortest_spec hu).roundsTo

theorem lt_of_nearest_eq_finite {t : Bool} (h : nearest s n d = .finite t u) :
    nearestUnits n d < unitLimit := by
  by_contra hRange
  rw [nearest, if_neg hRange] at h
  cases h

/-- The double nearest to an integer, and that it is in range. -/
theorem nearest_of_ofInt? {i : ℤ} (h : ofInt? i = some x) :
    nearest (decide (i < 0)) (unitsPerOne * i.natAbs) 1 = x ∧
      nearestUnits (unitsPerOne * i.natAbs) 1 < unitLimit := by
  rw [ofInt?] at h
  split at h
  · rename_i t u hFound
    exact ⟨hFound.trans (Option.some.inj h), lt_of_nearest_eq_finite hFound⟩
  · cases h

theorem nearest_zero (s : Bool) : nearest s 0 1 = .finite s 0 := by
  have hZero : nearestUnits 0 1 = 0 := rfl
  rw [nearest, hZero]
  exact if_pos zero_lt_unitLimit

/-- An integer that is in range has at most 400 digits. -/
theorem lt_of_nearestUnits_lt (hRange : nearestUnits (unitsPerOne * n) 1 < unitLimit) :
    n < 10 ^ 400 := by
  have hKept : unitsPerOne * n / 1 ≤ 2 * nearestUnits (unitsPerOne * n) 1 :=
    le_nearestUnits Nat.one_pos
  rw [Nat.div_one] at hKept
  refine Nat.lt_of_mul_lt_mul_left (a := unitsPerOne) ?_
  rw [Nat.mul_comm unitsPerOne (10 ^ 400)]
  exact (hKept.trans_lt (Nat.mul_lt_mul_of_pos_left hRange two_pos)).trans_le
    two_mul_unitLimit_le

/-- The digits of an integer that is in range are read as the double nearest to it. -/
theorem ofDecimal_natAbs {i : ℤ} (h : ofInt? i = some x) :
    ofDecimal (decide (i < 0)) i.natAbs 0 = x := by
  obtain ⟨hNearest, hRange⟩ := nearest_of_ofInt? h
  have hTop : digitCount i.natAbs ≤ 400 := digitCount_le_iff.mpr (lt_of_nearestUnits_lt hRange)
  unfold ofDecimal
  dsimp only
  by_cases hZero : i.natAbs = 0
  · rw [hZero, Nat.mul_zero, nearest_zero] at hNearest
    rw [← hNearest, hZero]
    rfl
  · rw [if_neg (by simp [hZero]), if_neg (by omega), tenTo_eq, Nat.pow_zero, Nat.mul_one,
      Nat.mul_comm]
    exact hNearest

/-- An integer is read from its text as the double nearest to it. -/
theorem readDouble?_toString {i : ℤ} (h : ofInt? i = some x) :
    readDouble? (toString i) = some x := by
  have hDigits := allDigits_toDigits i.natAbs
  have hSome : Nat.toDigits 10 i.natAbs ≠ [] := Nat.toDigits_ne_nil
  have hText := toList_toString_int i
  have hRead := decimal?_whole (decide (i < 0)) hDigits hSome isExponent_nil
  obtain ⟨c, t, hStart, hc⟩ := exists_digit_of_allDigits hDigits hSome []
  rw [List.append_nil] at hRead hStart
  rw [numeral_toDigits, ofDecimal_natAbs h] at hRead
  have hParts := hDigits.numeralParts
  rw [hStart] at hText hParts hRead
  rw [readDouble?_of_digit hc hParts hText, hRead]

end

end Binary64

end SparqlSelect
