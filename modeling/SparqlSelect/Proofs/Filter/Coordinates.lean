import SparqlSelect.Filter.Translation
import SparqlSelect.Fragment.Token
import SparqlSelect.Proofs.Number.Text
import SparqlSelect.Proofs.Pattern.Longest

/-!
# How coordinates are written

A coordinate is digits with an optional minus and fraction; an exponent is not allowed in it. Whole
numbers are written as integers, so large doubles never have an exponent. Small ones do: a double
below `10 ^ (-4)` that is not zero is written with one. A radius is rounded to two places first and
always has a plain text.

* `matches_coordinate_int`, `matches_coordinate_part` — integers and decimals.
* `coordinateText_spec` — which numbers are written as coordinates.
* `matches_kilometers` — radii.
-/

namespace SparqlSelect

open Pattern Binary64

-- ---------------------------------------------------------------------------
-- Digits
-- ---------------------------------------------------------------------------

section

variable {s t whole part : List Char}

theorem contains_decimal {c : Char} (h : c.isDigit = true) :
    CharClass.decimal.contains c = true := by
  rw [CharClass.contains, isDecimal, decimalValue?_of_isDigit h]
  rfl

theorem matches_many_digits (h : AllDigits s) : Matches (many (chars .decimal)) s :=
  matches_many_chars fun c hc => contains_decimal (h c hc)

theorem matches_digits (hSome : s ≠ []) (h : AllDigits s) : Matches Token.digits s := by
  obtain ⟨c, t, rfl⟩ := List.exists_cons_of_ne_nil hSome
  obtain ⟨hc, ht⟩ := List.forall_mem_cons.mp h
  exact .seq (.chars (contains_decimal hc)) (matches_many_digits ht)

theorem matches_sign (negative : Bool) :
    Matches (optional (char '-')) (if negative then ['-'] else []) := by
  cases negative with
  | true => exact .left (.chars rfl)
  | false => exact .right .nothing

/-- Digits are a coordinate. -/
theorem matches_coordinate_digits (negative : Bool) (hSome : s ≠ []) (h : AllDigits s) :
    Matches Token.coordinate ((if negative then ['-'] else []) ++ s) := by
  have hAll := Matches.seq (.seq (matches_sign negative) (matches_digits hSome h))
    (.right (p := char '.' ++ Token.digits) .nothing)
  rwa [List.append_nil] at hAll

/-- Digits with a fraction are a coordinate. -/
theorem matches_coordinate_part (negative : Bool) (hWhole : whole ≠ []) (hPart : part ≠ [])
    (h : AllDigits whole) (h' : AllDigits part) :
    Matches Token.coordinate ((if negative then ['-'] else []) ++ (whole ++ '.' :: part)) := by
  have hPoint : Matches (char '.') ['.'] := .chars rfl
  have hAll := Matches.seq (.seq (matches_sign negative) (matches_digits hWhole h))
    (.left (q := nothing) (.seq hPoint (matches_digits hPart h')))
  rwa [List.append_assoc] at hAll

/-- An integer is a coordinate. -/
theorem matches_coordinate_int (n : Int) : Matches Token.coordinate (toString n).toList := by
  rw [toList_toString_int]
  exact matches_coordinate_digits _ Nat.toDigits_ne_nil (allDigits_toDigits _)

end

-- ---------------------------------------------------------------------------
-- Numbers
-- ---------------------------------------------------------------------------

/-- Whether a value is a finite number: an integer, or a finite double. -/
def Json.isFiniteNumber : Json → Bool
  | .int _ => true
  | .float (.finite s u) => (Binary64.finite s u).isDouble
  | _ => false

/-- Whether a value is a double below `10 ^ (-4)` that is not zero. -/
def Json.isTiny : Json → Bool
  | .float (.finite _ u) => decide (0 < u) && decide (u * 10 ^ 4 < unitsPerOne)
  | _ => false

section

variable {u : Nat} {v : Json} {s : List Char}

/-- A tiny double is written with an exponent. -/
theorem coordinateText_of_tiny (negative : Bool) (hu : 0 < u) (hDouble : gap u ∣ u)
    (hTiny : u * 10 ^ 4 < unitsPerOne) :
    'e' ∈ (coordinateText (.float (.finite negative u))).toList ∧
      ∀ c ∈ (coordinateText (.float (.finite negative u))).toList, isNumeralPart c = true := by
  -- a number this small is no whole number, so it is written as it is
  have hWhole : (Binary64.finite negative u).isWhole = false := by
    have hLess : u < unitsPerOne := by omega
    rw [isWhole, Nat.mod_eq_of_lt hLess, beq_eq_false_iff_ne]
    omega
  obtain ⟨ds, point, hText, hSome, hDigits, hPoint, -⟩ := text_spec hu negative
  -- its point is too far to the left for the positional form
  have hFar := point_le_of_tiny hu hDouble hTiny (shortest_spec hu)
  have hOutside : ¬ (-4 < point ∧ point ≤ 16) := by omega
  obtain ⟨d, rest, places, rfl, hPlaces, -, -, hPlaced⟩ := placePoint_scientific hSome hOutside
  obtain ⟨hd, hRest⟩ := List.forall_mem_cons.mp hDigits.numeralParts
  have hPlain : coordinateText (.float (.finite negative u)) = text (.finite negative u) := by
    rw [coordinateText, hWhole]
    rfl
  rw [hPlain, hText, hPlaced]
  refine ⟨by simp, ?_⟩
  simp only [List.forall_mem_append, List.forall_mem_cons]
  refine ⟨?_, hd, ?_, rfl, ?_, hPlaces.numeralParts⟩
  · cases negative with
    | true => exact List.all_eq_true.mp (by decide)
    | false => exact List.all_eq_true.mp (by decide)
  · split_ifs
    · exact List.all_eq_true.mp (by decide)
    · exact List.forall_mem_cons.mpr ⟨rfl, hRest⟩
  · split_ifs <;> rfl

/-- Any other double is written as a coordinate. -/
theorem matches_coordinateText_of_large (negative : Bool) (hDouble : gap u ∣ u)
    (hLarge : u = 0 ∨ unitsPerOne ≤ u * 10 ^ 4) :
    Matches Token.coordinate (coordinateText (.float (.finite negative u))).toList := by
  rw [coordinateText]
  -- whole numbers are written as integers, the others in the positional form
  split_ifs with hWhole
  · exact matches_coordinate_int _
  · have hFraction : ¬ unitsPerOne ∣ u := by
      intro hDvd
      rw [isWhole, Nat.mod_eq_zero_of_dvd hDvd] at hWhole
      exact hWhole rfl
    have hu : 0 < u := by
      rcases Nat.eq_zero_or_pos u with rfl | hu
      · exact absurd (dvd_zero _) hFraction
      · exact hu
    obtain ⟨ds, point, hText, hSome, hDigits, hPoint, -⟩ := text_spec hu negative
    have hLeft := lt_point (shortest_spec hu) (hLarge.resolve_left (by omega))
    have hRight := point_le hu hDouble hFraction (shortest_spec hu)
    have hNear : -4 < point ∧ point ≤ 16 := by omega
    obtain ⟨whole, part, hPlaced, hSome, hSome', hDigits, hDigits', -⟩ :=
      placePoint_positional hDigits hSome hNear
    rw [hText, hPlaced]
    exact matches_coordinate_part negative hSome hSome' hDigits hDigits'

/-- A finite number is written as a coordinate exactly if it is not tiny, and has an exponent if it
is. -/
theorem coordinateText_spec (h : v.isFiniteNumber = true) :
    (v.isTiny = false → Matches Token.coordinate (coordinateText v).toList) ∧
      (v.isTiny = true → 'e' ∈ (coordinateText v).toList ∧
        ∀ c ∈ (coordinateText v).toList, isNumeralPart c = true) := by
  cases v with
  | int n => exact ⟨fun _ => matches_coordinate_int n, fun hTiny => by cases hTiny⟩
  | float x =>
    cases x with
    | finite s u =>
      have hDouble : (Binary64.finite s u).isDouble = true := h
      replace hDouble := (isDouble_finite_iff.mp hDouble).1
      -- whether a double is tiny is a bound on its units
      constructor
      · intro hLarge
        refine matches_coordinateText_of_large s hDouble ?_
        simp only [Json.isTiny, Bool.and_eq_false_iff, decide_eq_false_iff_not] at hLarge
        omega
      · intro hTiny
        simp only [Json.isTiny, Bool.and_eq_true, decide_eq_true_iff] at hTiny
        exact coordinateText_of_tiny s hTiny.1 hDouble hTiny.2
    | infinite s => cases h
    | nan => cases h
  | null => cases h
  | bool b => cases h
  | str t => cases h
  | arr items => cases h
  | obj members => cases h

/-- The text of a finite number has no character in it that ends a literal or opens an IRI. -/
theorem coordinateText_excludes (h : v.isFiniteNumber = true) {d : Char}
    (hd : d ∈ ['<', '"', '\\', '\n', '\r']) : d ∉ (coordinateText v).toList := by
  obtain ⟨hLarge, hTiny⟩ := coordinateText_spec h
  cases hSize : v.isTiny with
  | false =>
    have hExcludes : (['<', '"', '\\', '\n', '\r'].all Token.coordinate.excludes) = true := by
      decide
    exact not_mem_of_excludes (hLarge hSize) (List.all_eq_true.mp hExcludes d hd)
  | true =>
    have hOther : (['<', '"', '\\', '\n', '\r'].all (!isNumeralPart ·)) = true := by decide
    intro hMem
    simpa [(hTiny hSize).2 d hMem] using List.all_eq_true.mp hOther d hd

end

-- ---------------------------------------------------------------------------
-- Radii
-- ---------------------------------------------------------------------------

section

variable {u n d : Nat} {part : List Char}

theorem ne_of_isDigit {c e : Char} (hc : c.isDigit = true) (he : e.isDigit = false) :
    (c == e) = false := by
  rw [beq_eq_false_iff_ne]
  rintro rfl
  rw [hc] at he
  cases he

theorem dropWhile_cons_of_digit {c e : Char} (hc : c.isDigit = true) (he : e.isDigit = false)
    (s : List Char) : (c :: s).dropWhile (· == e) = c :: s := by
  rw [List.dropWhile_cons_of_neg]
  simp [ne_of_isDigit hc he]

/-- Zeros at the end of a fraction go, and the point too if nothing is left of the fraction. -/
theorem stripped_eq (front : List Char) {c : Char} (hc : c.isDigit = true)
    (hPart : AllDigits part) :
    ∃ rest, AllDigits rest ∧ (((front ++ [c] ++ '.' :: part).reverse.dropWhile (· == '0')).dropWhile
      (· == '.')).reverse = front ++ [c] ++ (if rest = [] then [] else '.' :: rest) := by
  have hReverse : (front ++ [c] ++ '.' :: part).reverse =
      part.reverse ++ '.' :: c :: front.reverse := by simp
  rw [hReverse, List.dropWhile_append]
  -- the zeros at the end go, and the point with them if nothing else is left behind it
  cases hLeft : part.reverse.dropWhile (· == '0') with
  | nil =>
    refine ⟨[], by simp [AllDigits], ?_⟩
    have hPoint : ('.' :: c :: front.reverse).dropWhile (· == '0') = '.' :: c :: front.reverse :=
      rfl
    have hNext : ('.' :: c :: front.reverse).dropWhile (· == '.') = c :: front.reverse :=
      dropWhile_cons_of_digit hc rfl front.reverse
    rw [List.isEmpty_nil, if_pos rfl, hPoint, hNext]
    simp
  | cons e rest =>
    have hDigits : AllDigits (e :: rest) := by
      rw [← hLeft]
      have hReversed : AllDigits part.reverse := fun c hc => hPart c (List.mem_reverse.mp hc)
      exact hReversed.sublist (List.dropWhile_sublist _)
    refine ⟨(e :: rest).reverse, fun c hc => hDigits c (List.mem_reverse.mp hc), ?_⟩
    rw [List.isEmpty_cons, if_neg Bool.false_ne_true, List.cons_append,
      dropWhile_cons_of_digit (hDigits e List.mem_cons_self) rfl]
    simp

/-- The number of kilometers of a finite radius is finite. -/
theorem exists_kilometers (s : Bool) (hu : u < unitLimit) :
    ∃ w, ((Binary64.finite s u).divideBy 1000).roundToHundredths = .finite s w := by
  have hOne : 0 < unitsPerOne := zero_lt_unitsPerOne
  have hLimit : 1024 * unitsPerOne ≤ unitLimit := by decide +kernel
  -- rounding a quotient at most doubles it, which each of the two divisions outweighs
  have hFirst : nearestUnits u 1000 ≤ 2 * (u / 1000) + 1 := nearestUnits_le (by decide)
  have hDivided : (Binary64.finite s u).divideBy 1000 = .finite s (nearestUnits u 1000) := by
    have hSmall : nearestUnits u 1000 < unitLimit := by
      generalize unitLimit = limit at *
      generalize unitsPerOne = one at *
      omega
    rw [divideBy, nearest]
    exact if_pos hSmall
  generalize nearestUnits u 1000 = v at hFirst hDivided
  have hHundredths : roundHalfEven (v * 100) unitsPerOne * unitsPerOne ≤ v * 100 + unitsPerOne := by
    have hRound : roundHalfEven (v * 100) unitsPerOne ≤ v * 100 / unitsPerOne + 1 :=
      roundHalfEven_le hOne (Nat.lt_mul_of_div_lt (Nat.lt_succ_self _) hOne).le
    calc roundHalfEven (v * 100) unitsPerOne * unitsPerOne
        ≤ (v * 100 / unitsPerOne + 1) * unitsPerOne := Nat.mul_le_mul_right _ hRound
      _ = v * 100 / unitsPerOne * unitsPerOne + unitsPerOne := by ring
      _ ≤ v * 100 + unitsPerOne := Nat.add_le_add_right (Nat.div_mul_le_self _ _) _
  have hSecond := nearestUnits_le (n := roundHalfEven (v * 100) unitsPerOne * unitsPerOne)
    (d := 100) (by decide)
  have hSmall : nearestUnits (roundHalfEven (v * 100) unitsPerOne * unitsPerOne) 100 <
      unitLimit := by
    generalize nearestUnits (roundHalfEven (v * 100) unitsPerOne * unitsPerOne) 100 = w at *
    generalize roundHalfEven (v * 100) unitsPerOne * unitsPerOne = n at *
    generalize unitLimit = limit at *
    generalize unitsPerOne = one at *
    omega
  refine ⟨nearestUnits (roundHalfEven (v * 100) unitsPerOne * unitsPerOne) 100, ?_⟩
  rw [hDivided, roundToHundredths, nearest]
  exact if_pos hSmall

/-- A finite radius is written as a coordinate. -/
theorem matches_kilometers (s : Bool) (hu : u < unitLimit) :
    Matches Token.coordinate (kilometers (.finite s u)).toList := by
  obtain ⟨w, hw⟩ := exists_kilometers s hu
  rw [kilometers, hw, String.toList_ofList, fixedHundredths]
  generalize roundHalfEven (w * 100) unitsPerOne = n
  have hPart : AllDigits (List.replicate (2 - (Nat.toDigits 10 (n % 100)).length) '0' ++
      Nat.toDigits 10 (n % 100)) := (allDigits_zeros _).append (allDigits_toDigits _)
  have hWhole := allDigits_toDigits (n / 100)
  obtain hNone | ⟨init, c, hLast⟩ := List.eq_nil_or_concat (Nat.toDigits 10 (n / 100))
  · exact absurd hNone Nat.toDigits_ne_nil
  rw [List.concat_eq_append] at hLast
  have hc : c.isDigit = true := hWhole c (by simp [hLast])
  obtain ⟨rest, hRest, hStripped⟩ := stripped_eq ((if s then ['-'] else []) ++ init) hc hPart
  simp only [hLast]
  simp only [List.append_assoc, List.cons_append, List.nil_append] at hStripped ⊢
  rw [hStripped]
  rw [hLast] at hWhole
  -- without a fraction the text is the whole part alone
  by_cases hNone : rest = []
  · rw [if_pos hNone]
    exact matches_coordinate_digits s (by simp) hWhole
  · have hSome : init ++ [c] ≠ [] := by simp
    have hCoordinate := matches_coordinate_part s hSome hNone hWhole hRest
    rw [if_neg hNone]
    simpa using hCoordinate

end

end SparqlSelect
