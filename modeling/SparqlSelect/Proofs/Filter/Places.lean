import Mathlib.Data.List.TakeWhile
import SparqlSelect.Filter.Translation
import SparqlSelect.Proofs.Fragment.Circle
import SparqlSelect.Proofs.Traced.Success

/-!
# What clauses give for a place is no condition

A circle is written as two coordinates, its radius in kilometers and a unit. The coordinates are
taken as they are given and may be anything, but the radius is a number and ends in a digit or a
letter. So nothing that the coordinates bring can make a condition of the circle, unless its unit
has a quote in it.

* `exists_last_kilometers` — what a radius ends in.
* `not_condition_circleOf`, `not_condition_polygonOf` — the fragments of a clause.
-/

namespace SparqlSelect

-- ---------------------------------------------------------------------------
-- Radii
-- ---------------------------------------------------------------------------

/-- What the text of a number is made of: digits, signs, points, and the letters of the names of the
numbers that have no digits. -/
def isNumberPart (c : Char) : Bool := c.isDigit || ['-', '.', 'n', 'a', 'i', 'f'].contains c

theorem isNumberPart_of_mem_toDigits {n : Nat} {c : Char} (h : c ∈ Nat.toDigits 10 n) :
    isNumberPart c = true := by
  rw [isNumberPart, Nat.isDigit_of_mem_toDigits (by decide) (by decide) h]
  rfl

/-- The digits of a number start with one. -/
theorem exists_of_toDigits (n : Nat) : ∃ d t, Nat.toDigits 10 n = d :: t ∧ d ≠ '.' := by
  obtain ⟨d, t, hDigits⟩ := List.exists_cons_of_ne_nil (Nat.toDigits_ne_nil (n := n) (b := 10))
  refine ⟨d, t, hDigits, ?_⟩
  rintro rfl
  have hDigit : '.'.isDigit = true :=
    Nat.isDigit_of_mem_toDigits (by decide) (by decide) (hDigits ▸ List.mem_cons_self)
  cases hDigit

/-- What a number is made of is neither white space nor a caret nor a quote. -/
theorem plain_of_isNumberPart {c : Char} (h : isNumberPart c = true) :
    isBlank c = false ∧ c ≠ '^' ∧ isQuote c = false := by
  rcases Bool.or_eq_true_iff.mp h with hDigit | hOther
  · refine ⟨?_, ?_, ?_⟩
    · -- the digits lie between two ranges of white space
      have hRange : 48 ≤ c.toNat ∧ c.toNat ≤ 57 := Char.isDigit_iff_toNat.mp hDigit
      have hApart : ∀ r ∈ Unicode.blankRanges, r.2 < 48 ∨ 57 < r.1 := by decide
      rw [Bool.eq_false_iff]
      intro hBlank
      obtain ⟨r, hr, hFirst, hLast⟩ := Unicode.exists_of_inRanges hBlank
      rcases hApart r hr with hLess | hLess <;> omega
    · rintro rfl
      exact absurd hDigit (by decide)
    · rw [Bool.eq_false_iff]
      intro hQuote
      rcases Bool.or_eq_true_iff.mp hQuote with hQuote | hQuote
      · exact absurd (beq_iff_eq.mp hQuote ▸ hDigit) (by decide)
      · exact absurd (beq_iff_eq.mp hQuote ▸ hDigit) (by decide)
  · have hAll : ['-', '.', 'n', 'a', 'i', 'f'].all
        (fun c => !isBlank c && c != '^' && !isQuote c) = true := by decide
    simpa [and_assoc] using List.all_eq_true.mp hAll c (List.contains_iff_mem.mp hOther)

theorem isNumberPart_fixedHundredths (x : Binary64) :
    ∀ c ∈ x.fixedHundredths, isNumberPart c = true := by
  cases x with
  | nan => exact List.all_eq_true.mp (by decide)
  | infinite s => cases s <;> exact List.all_eq_true.mp (by decide)
  | finite s u =>
    -- the sign, the whole part, the point, and the zeros in front of the rest
    have hSign : ∀ c ∈ (if s then ['-'] else []), isNumberPart c = true := by
      cases s <;> exact List.all_eq_true.mp (by decide)
    have hPoint : ∀ c ∈ ['.'], isNumberPart c = true := List.all_eq_true.mp (by decide)
    have hZeros (n : Nat) : ∀ c ∈ List.replicate n '0', isNumberPart c = true := by
      intro c hc
      rw [List.eq_of_mem_replicate hc]
      decide
    simp only [Binary64.fixedHundredths, List.forall_mem_append]
    exact ⟨⟨⟨⟨hSign, fun _ => isNumberPart_of_mem_toDigits⟩, hPoint⟩, hZeros _⟩,
      fun _ => isNumberPart_of_mem_toDigits⟩

/-- The text of a number does not start with a point, and it has more in it than zeros. -/
theorem fixedHundredths_starts (x : Binary64) :
    ∃ c t, x.fixedHundredths = c :: t ∧ c ≠ '.' ∧ ∃ d ∈ c :: t, d ≠ '0' := by
  -- the sign or the first digit comes first, and some character is not a zero
  cases x with
  | nan => exact ⟨'n', ['a', 'n'], rfl, by decide, 'n', by decide, by decide⟩
  | infinite s =>
    cases s
    · exact ⟨'i', ['n', 'f'], rfl, by decide, 'n', by decide, by decide⟩
    · exact ⟨'-', ['i', 'n', 'f'], rfl, by decide, 'n', by decide, by decide⟩
  | finite s u =>
    obtain ⟨d, more, hDigits, hd⟩ := exists_of_toDigits
      (roundHalfEven (u * 100) Binary64.unitsPerOne / 100)
    cases s with
    | false =>
      refine ⟨d, _, by simp only [Binary64.fixedHundredths, hDigits]; rfl, hd, '.', ?_, by decide⟩
      simp
    | true =>
      refine ⟨'-', _, by simp only [Binary64.fixedHundredths, hDigits]; rfl, by decide, '-', ?_,
        by decide⟩
      exact List.mem_cons_self

/-- A radius ends in a part of a number. -/
theorem exists_last_kilometers (meters : Binary64) :
    ∃ t c, (kilometers meters).toList = t ++ [c] ∧ isNumberPart c = true := by
  obtain ⟨c, t, hStart, hPoint, d, hd, hZero⟩ :=
    fixedHundredths_starts (meters.divideBy 1000).roundToHundredths
  have hParts := isNumberPart_fixedHundredths (meters.divideBy 1000).roundToHundredths
  rw [kilometers, String.toList_ofList]
  generalize (meters.divideBy 1000).roundToHundredths.fixedHundredths = s at hStart hParts
  cases hRest : (s.reverse.dropWhile (· == '0')).dropWhile (· == '.') with
  | nil =>
    -- what stands in front of the zeros at the end would be points, so there are only zeros
    rw [List.dropWhile_eq_nil_iff] at hRest
    have hNone : s.reverse.dropWhile (· == '0') = [] := by
      rcases List.eq_nil_or_concat (s.reverse.dropWhile (· == '0')) with hNil | ⟨u, e, hu⟩
      · exact hNil
      · have hFirst : s.reverse = s.reverse.takeWhile (· == '0') ++ u ++ [e] := by
          rw [List.append_assoc, ← List.concat_eq_append, ← hu]
          exact List.takeWhile_append_dropWhile.symm
        rw [hStart, List.reverse_cons] at hFirst
        obtain rfl := List.singleton_inj.mp (List.append_inj' hFirst rfl).2
        exact absurd (beq_iff_eq.mp (hRest c (by simp [hu]))) hPoint
    rw [List.dropWhile_eq_nil_iff] at hNone
    exact absurd (beq_iff_eq.mp (hNone d (List.mem_reverse.mpr (hStart ▸ hd)))) hZero
  | cons last rest =>
    refine ⟨rest.reverse, last, List.reverse_cons, hParts last ?_⟩
    have hMem : last ∈ s.reverse :=
      (List.dropWhile_sublist _).subset ((List.dropWhile_sublist _).subset
        (hRest ▸ List.mem_cons_self))
    exact List.mem_reverse.mp hMem

-- ---------------------------------------------------------------------------
-- Circles and polygons of clauses
-- ---------------------------------------------------------------------------

section

variable {s : Settings} {c : Clause} {e : String}

/-- A circle is two coordinates, a radius and a unit. -/
theorem circleOf_eq_some (h : circleOf s c = .ok (some e)) :
    ∃ latitude longitude radius, e = "(" ++ coordinateText latitude ++ " " ++
      coordinateText longitude ++ " " ++ kilometers radius ++ " <" ++ s.distanceUnit.display ++
      ">)" := by
  unfold circleOf at h
  -- the radius and both coordinates must be there
  split at h
  · cases h
  rename_i radius _
  obtain ⟨hasLatitude, -, h⟩ := bind_eq_ok_iff.mp h
  split at h
  · cases h
  obtain ⟨hasLongitude, -, h⟩ := bind_eq_ok_iff.mp h
  split at h
  · cases h
  obtain ⟨latitude, -, h⟩ := bind_eq_ok_iff.mp h
  obtain ⟨longitude, -, h⟩ := bind_eq_ok_iff.mp h
  cases h
  exact ⟨latitude, longitude, radius, rfl⟩

/-- The circle of a clause is no condition, unless its unit has a quote in it. -/
theorem not_condition_circleOf (hUnit : s.distanceUnit.display.toList.any isQuote = false)
    (h : circleOf s c = .ok (some e)) : Kind.acceptsAny Kind.forFilter e = false := by
  obtain ⟨latitude, longitude, radius, rfl⟩ := circleOf_eq_some h
  obtain ⟨t, d, hRadius, hd⟩ := exists_last_kilometers radius
  obtain ⟨hBlank, hCaret, hQuote⟩ := plain_of_isNumberPart hd
  have hShape : ("(" ++ coordinateText latitude ++ " " ++ coordinateText longitude ++ " " ++
      kilometers radius ++ " <" ++ s.distanceUnit.display ++ ">)").toList =
      '(' :: ((coordinateText latitude ++ " " ++ coordinateText longitude ++ " ").toList ++ t ++
        d :: ' ' :: '<' :: s.distanceUnit.display.toList) ++ ['>'] ++ [')'] := by
    simp [hRadius]
  refine not_condition_circle hShape hBlank hCaret hQuote fun c hc => ?_
  simpa using List.any_eq_false.mp hUnit c hc

/-- The polygon of a clause is no condition. -/
theorem not_condition_polygonOf (h : polygonOf c = .ok (some e)) :
    Kind.acceptsAny Kind.forFilter e = false := by
  obtain ⟨corners, -, h⟩ := bind_eq_ok_iff.mp h
  split at h
  · cases h
  · cases h
    exact not_condition_polygon (by simp; rfl)

end

end SparqlSelect
