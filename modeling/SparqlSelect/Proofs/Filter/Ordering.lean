import SparqlSelect.Filter.Range
import SparqlSelect.Proofs.Traced.Success

/-!
# The order of bounds

Two bounds are compared as numbers if both are numbers, else as moments if both are moments that can
be compared, else as texts. Which of these it is does not depend on the order in which the bounds
are taken, because each of the conditions is about both of them alike. And numbers, moments and
texts are each in a line, so of two bounds at most one lies above the other, and if neither does
they are equal as what they were compared as.

* `Json.isInRange`, `exists_exceeds_iff` — values that can be compared at all.
* `Moment.Comparable`, `Moment.instant` — moments that can be compared, and where they stand.
* `BoundPair` — two bounds as what they are compared as, with the order of each form.
* `ComparedAs` — how two bounds are compared.
* `exceeds_eq_ok_iff` — the comparison is that of the pair.
* `exceeds_asymm` — of two bounds at most one lies above the other.
-/

namespace SparqlSelect

-- ---------------------------------------------------------------------------
-- Range
-- ---------------------------------------------------------------------------

namespace Json

variable {value : Json}

/-- Whether a value is no integer that is out of the range of a double. -/
def isInRange (value : Json) : Bool :=
  match value.toDouble with
  | .error .tooLarge => false
  | _ => true

theorem isInRange_iff : value.isInRange = true ↔ value.toDouble ≠ .error .tooLarge := by
  unfold isInRange
  split
  · rename_i hLarge
    simp [hLarge]
  · rename_i hOther
    simpa using hOther

end Json

/-- A value in range is a number as a bound, or it is none. -/
theorem exists_boundNumber {value : Json} (h : value.isInRange = true) :
    ∃ number, boundNumber value = .ok number := by
  unfold boundNumber
  split
  · exact ⟨none, rfl⟩
  · rename_i x _ _
    exact ⟨some x, rfl⟩
  · rename_i hLarge
    exact absurd hLarge (Json.isInRange_iff.mp h)
  · exact ⟨none, rfl⟩

theorem boundNumber_of_not_inRange {value : Json} (h : ¬ value.isInRange = true) :
    boundNumber value = .error .tooLarge := by
  rw [Json.isInRange_iff, not_not] at h
  rw [boundNumber, h]

/-- The only reason why two bounds are not compared is that one is out of range. -/
theorem exceeds_cases (upper lower : Json) :
    (upper.isInRange = true ∧ lower.isInRange = true ∧ ∃ above, exceeds upper lower = .ok above) ∨
      (¬ (upper.isInRange = true ∧ lower.isInRange = true) ∧
        exceeds upper lower = .error .tooLarge) := by
  -- the upper bound is read first, so its failure comes before the lower one's
  by_cases hUpper : upper.isInRange = true
  · obtain ⟨x, hx⟩ := exists_boundNumber hUpper
    by_cases hLower : lower.isInRange = true
    · obtain ⟨y, hy⟩ := exists_boundNumber hLower
      refine .inl ⟨hUpper, hLower, ?_⟩
      simp only [exceeds, hx, hy, bind, Except.bind]
      split
      · exact ⟨_, rfl⟩
      · exact ⟨_, rfl⟩
    · refine .inr ⟨fun hBoth => hLower hBoth.2, ?_⟩
      rw [exceeds, hx, boundNumber_of_not_inRange hLower]
      rfl
  · refine .inr ⟨fun hBoth => hUpper hBoth.1, ?_⟩
    rw [exceeds, boundNumber_of_not_inRange hUpper]
    rfl

/-- Two bounds are compared exactly if both are in range. -/
theorem exists_exceeds_iff {upper lower : Json} :
    (∃ above, exceeds upper lower = .ok above) ↔
      upper.isInRange = true ∧ lower.isInRange = true := by
  obtain ⟨hUpper, hLower, hAbove⟩ | ⟨hNot, hError⟩ := exceeds_cases upper lower
  · exact iff_of_true hAbove ⟨hUpper, hLower⟩
  · refine iff_of_false ?_ hNot
    rintro ⟨above, hAbove⟩
    rw [hAbove] at hError
    cases hError

-- ---------------------------------------------------------------------------
-- Moments
-- ---------------------------------------------------------------------------

namespace Moment

/-- Two times on days or two times of day, both with an offset from universal time or both without.
-/
inductive Comparable : Moment → Moment → Prop
  | dateTimes (a b : Int) : Comparable (.dateTime a none) (.dateTime b none)
  | dateTimesWithOffsets (a b s t : Int) :
      Comparable (.dateTime a (some s)) (.dateTime b (some t))
  | times (a b : Int) : Comparable (.time a none) (.time b none)
  | timesWithOffsets (a b s t : Int) : Comparable (.time a (some s)) (.time b (some t))

/-- Where a moment stands among those that it can be compared with: the time that was written, or
universal time if there is an offset. Offsets of times of day count in whole seconds. -/
def instant : Moment → Int
  | dateTime a none | time a none => a
  | dateTime a (some offset) => a - offset
  | time a (some offset) => a - offset.fdiv perSecond * perSecond

variable {s t : Moment}

theorem Comparable.symm (h : s.Comparable t) : t.Comparable s := by
  cases h with
  | dateTimes a b => exact .dateTimes b a
  | dateTimesWithOffsets a b s t => exact .dateTimesWithOffsets b a t s
  | times a b => exact .times b a
  | timesWithOffsets a b s t => exact .timesWithOffsets b a t s

theorem after?_of_comparable (h : s.Comparable t) :
    s.after? t = some (decide (t.instant < s.instant)) := by
  cases h <;> rfl

theorem after?_of_not_comparable (h : ¬ s.Comparable t) : s.after? t = none := by
  unfold after?
  split
  · exact absurd (.dateTimes _ _) h
  · exact absurd (.times _ _) h
  · exact absurd (.dateTimesWithOffsets _ _ _ _) h
  · exact absurd (.timesWithOffsets _ _ _ _) h
  · rfl

end Moment

-- ---------------------------------------------------------------------------
-- Numbers
-- ---------------------------------------------------------------------------

namespace Binary64

variable {x y : Binary64}

/-- No number is both below and above another. -/
theorem not_lt_of_lt (h : x.lt y = true) : y.lt x = false := by
  cases x with
  | nan => cases h
  | finite s u =>
    cases y with
    | nan => cases h
    | infinite t => simp_all [lt]
    | finite t v =>
      -- two finite doubles compare by their signed units
      simp only [lt, decide_eq_true_eq, decide_eq_false_iff_not] at h ⊢
      omega
  | infinite s =>
    cases y with
    | nan => cases h
    | _ => simp_all [lt]

/-- Numbers of which neither is below the other are equal; zeros of both signs are. -/
theorem not_lt_iff_equal (hx : x ≠ .nan) (hy : y ≠ .nan) :
    x.lt y = false ∧ y.lt x = false ↔ (Json.float x).equal (.float y) = true := by
  -- infinite bounds have no units, so their cases are decided by the signs
  cases x with
  | nan => exact absurd rfl hx
  | finite s u =>
    cases y with
    | nan => exact absurd rfl hy
    | infinite t => cases t <;> simp [lt, Json.equal, Json.rank?]
    | finite t v =>
      simp only [lt, decide_eq_false_iff_not, Json.equal, Json.rank?, beq_iff_eq, Prod.mk.injEq,
        true_and]
      omega
  | infinite s =>
    cases y with
    | nan => exact absurd rfl hy
    | finite t v => cases s <;> simp [lt, Json.equal, Json.rank?]
    | infinite t => cases s <;> cases t <;> simp [lt, Json.equal, Json.rank?]

end Binary64

/-- A bound that is a number is one that can be compared. -/
theorem ne_nan_of_boundNumber {v : Json} {x : Binary64} (h : boundNumber v = .ok (some x)) :
    x ≠ .nan := by
  rintro rfl
  unfold boundNumber at h
  split at h
  · cases h
  · rename_i hOther _
    cases h
    exact hOther rfl
  · cases h
  · cases h

-- ---------------------------------------------------------------------------
-- Pairs
-- ---------------------------------------------------------------------------

/-- Two bounds as what they are compared as. -/
inductive BoundPair where
  | numbers (x y : Binary64)
  | moments (s t : Moment)
  | texts (s t : String)

namespace BoundPair

/-- The same bounds in the other order. -/
def swap : BoundPair → BoundPair
  | numbers x y => numbers y x
  | moments s t => moments t s
  | texts s t => texts t s

/-- The first bound lies above the second. -/
def Exceeds : BoundPair → Prop
  | numbers x y => y.lt x = true
  | moments s t => t.instant < s.instant
  | texts s t => t < s

/-- The bounds are equal as what they are compared as. -/
def Equal : BoundPair → Prop
  | numbers x y => (Json.float x).equal (.float y) = true
  | moments s t => s.instant = t.instant
  | texts s t => s = t

/-- The bounds are not both above one another. -/
theorem not_exceeds_swap {p : BoundPair} (h : p.Exceeds) : ¬ p.swap.Exceeds := by
  cases p with
  | numbers x y =>
    intro hSwap
    have hNot := Binary64.not_lt_of_lt h
    rw [show x.lt y = true from hSwap] at hNot
    cases hNot
  | moments s t => exact fun hSwap => Int.lt_asymm h hSwap
  | texts s t => exact fun hSwap => String.lt_asymm h hSwap

end BoundPair

/-- How two bounds are compared. A bound that is a number out of range is not compared at all. -/
inductive ComparedAs (v w : Json) : BoundPair → Prop
  /-- Both are numbers. -/
  | numbers {x y : Binary64} (hv : boundNumber v = .ok (some x))
      (hw : boundNumber w = .ok (some y)) : ComparedAs v w (.numbers x y)
  /-- One is no number, and both are moments that can be compared. -/
  | moments {m n : Option Binary64} {s t : Moment} (hv : boundNumber v = .ok m)
      (hw : boundNumber w = .ok n) (hNot : m = none ∨ n = none) (hs : boundMoment v = some s)
      (ht : boundMoment w = some t) (hBoth : s.Comparable t) : ComparedAs v w (.moments s t)
  /-- One is no number, and they are no moments that can be compared. -/
  | texts {m n : Option Binary64} (hv : boundNumber v = .ok m) (hw : boundNumber w = .ok n)
      (hNot : m = none ∨ n = none)
      (hNone : ∀ s t, boundMoment v = some s → boundMoment w = some t → ¬ s.Comparable t) :
      ComparedAs v w (.texts v.display w.display)

section

variable {v w : Json} {p p' : BoundPair} {a : Bool}

/-- In the other order bounds are compared in the same way. -/
theorem ComparedAs.swap (h : ComparedAs v w p) : ComparedAs w v p.swap := by
  cases h with
  | numbers hv hw => exact .numbers hw hv
  | moments hv hw hNot hs ht hBoth => exact .moments hw hv hNot.symm ht hs hBoth.symm
  | texts hv hw hNot hNone =>
    exact .texts hw hv hNot.symm fun t s ht hs hBoth => hNone s t hs ht hBoth.symm

/-- There is one way to compare two bounds. -/
theorem ComparedAs.unique (h : ComparedAs v w p) (h' : ComparedAs v w p') : p = p' := by
  -- a way to compare that needs a bound without a number excludes the one by numbers
  have hNumbers {m n : Option Binary64} {x y : Binary64} (hv : boundNumber v = .ok m)
      (hw : boundNumber w = .ok n) (hNot : m = none ∨ n = none)
      (hx : boundNumber v = .ok (some x)) (hy : boundNumber w = .ok (some y)) : False := by
    rw [hv] at hx
    rw [hw] at hy
    rcases hNot with rfl | rfl
    · cases hx
    · cases hy
  cases h with
  | numbers hx hy =>
    cases h' with
    | numbers hx' hy' =>
      rw [hx] at hx'
      rw [hy] at hy'
      cases hx'
      cases hy'
      rfl
    | moments hv hw hNot _ _ _ => exact (hNumbers hv hw hNot hx hy).elim
    | texts hv hw hNot _ => exact (hNumbers hv hw hNot hx hy).elim
  | moments hv hw hNot hs ht hBoth =>
    cases h' with
    | numbers hx hy => exact (hNumbers hv hw hNot hx hy).elim
    | moments _ _ _ hs' ht' _ =>
      rw [hs] at hs'
      rw [ht] at ht'
      cases hs'
      cases ht'
      rfl
    | texts _ _ _ hNone => exact absurd hBoth (hNone _ _ hs ht)
  | texts hv hw hNot hNone =>
    cases h' with
    | numbers hx hy => exact (hNumbers hv hw hNot hx hy).elim
    | moments _ _ _ hs ht hBoth => exact absurd hBoth (hNone _ _ hs ht)
    | texts _ _ _ _ => rfl

/-- Bounds of which neither lies above the other are equal. -/
theorem ComparedAs.not_exceeds_iff (h : ComparedAs v w p) :
    ¬ p.Exceeds ∧ ¬ p.swap.Exceeds ↔ p.Equal := by
  -- numbers, moments and texts are each ordered totally
  cases h with
  | numbers hv hw =>
    rw [BoundPair.Equal,
      ← Binary64.not_lt_iff_equal (ne_nan_of_boundNumber hv) (ne_nan_of_boundNumber hw)]
    simp [BoundPair.Exceeds, BoundPair.swap, and_comm]
  | moments _ _ _ _ _ _ =>
    simp only [BoundPair.Exceeds, BoundPair.swap, BoundPair.Equal]
    omega
  | texts _ _ _ _ =>
    simp only [BoundPair.Exceeds, BoundPair.swap, BoundPair.Equal]
    refine ⟨fun ⟨hAbove, hBelow⟩ => ?_, fun hSame => ?_⟩
    · exact String.le_antisymm (String.not_lt.mp hAbove) (String.not_lt.mp hBelow)
    · rw [hSame]
      exact ⟨String.lt_irrefl _, String.lt_irrefl _⟩

/-- Bounds that can be compared are compared as they should be. -/
theorem ComparedAs.exceeds_eq (h : ComparedAs v w p) :
    ∃ a, exceeds v w = .ok a ∧ (a = true ↔ p.Exceeds) := by
  -- if one of the bounds is no number, the other one being a number makes no difference
  have hOther {m n : Option Binary64} (hv : boundNumber v = .ok m) (hw : boundNumber w = .ok n)
      (hNot : m = none ∨ n = none) : exceeds v w = .ok ((do
        let s ← boundMoment v
        let t ← boundMoment w
        s.after? t).getD (decide (w.display < v.display))) := by
    rw [exceeds, hv, hw]
    rcases hNot with rfl | rfl
    · rfl
    · cases m <;> rfl
  cases h with
  | @numbers x y hv hw =>
    refine ⟨y.lt x, ?_, Iff.rfl⟩
    rw [exceeds, hv, hw]
    rfl
  | @moments m n s t hv hw hNot hs ht hBoth =>
    refine ⟨decide (t.instant < s.instant), ?_, decide_eq_true_iff⟩
    rw [hOther hv hw hNot, hs, ht]
    change Except.ok ((s.after? t).getD _) = _
    rw [Moment.after?_of_comparable hBoth, Option.getD_some]
  | texts hv hw hNot hNone =>
    refine ⟨decide (w.display < v.display), ?_, decide_eq_true_iff⟩
    rw [hOther hv hw hNot]
    cases hs : boundMoment v with
    | none => rfl
    | some s =>
      cases ht : boundMoment w with
      | none => rfl
      | some t =>
        change Except.ok ((s.after? t).getD _) = _
        rw [Moment.after?_of_not_comparable (hNone s t hs ht), Option.getD_none]

/-- Bounds of which a comparison is made are compared in some way. -/
theorem exists_comparedAs (h : exceeds v w = .ok a) : ∃ p, ComparedAs v w p := by
  obtain ⟨m, hv, h⟩ := bind_eq_ok_iff.mp h
  obtain ⟨n, hw, -⟩ := bind_eq_ok_iff.mp h
  by_cases hNumbers : m = none ∨ n = none
  · by_cases hMoments : ∃ s t, boundMoment v = some s ∧ boundMoment w = some t ∧ s.Comparable t
    · obtain ⟨s, t, hs, ht, hBoth⟩ := hMoments
      exact ⟨_, .moments hv hw hNumbers hs ht hBoth⟩
    · exact ⟨_, .texts hv hw hNumbers fun s t hs ht hBoth => hMoments ⟨s, t, hs, ht, hBoth⟩⟩
  · obtain ⟨hFirst, hSecond⟩ := not_or.mp hNumbers
    obtain ⟨x, rfl⟩ := Option.ne_none_iff_exists'.mp hFirst
    obtain ⟨y, rfl⟩ := Option.ne_none_iff_exists'.mp hSecond
    exact ⟨_, .numbers hv hw⟩

/-- **The order of bounds.** If a comparison of two bounds is made, it is also made in the other
order. Both are made in the same way, the only one there is for these bounds, and tell which of the
two lies above the other. They are not both true, and both are false exactly if the bounds are equal
as what they were compared as. -/
theorem exceeds_asymm (h : exceeds v w = .ok a) :
    ∃ p b, exceeds w v = .ok b ∧
      (∀ p', ComparedAs v w p' ↔ p' = p) ∧ (∀ p', ComparedAs w v p' ↔ p' = p.swap) ∧
      (a = true ↔ p.Exceeds) ∧ (b = true ↔ p.swap.Exceeds) ∧
      ¬ (a = true ∧ b = true) ∧ (a = false ∧ b = false ↔ p.Equal) := by
  obtain ⟨p, hp⟩ := exists_comparedAs h
  obtain ⟨a', ha', hAbove⟩ := hp.exceeds_eq
  obtain ⟨b, hb, hBelow⟩ := hp.swap.exceeds_eq
  obtain rfl : a = a' := by
    rw [h] at ha'
    exact Except.ok.inj ha'
  have hOnly {v w : Json} {p : BoundPair} (hp : ComparedAs v w p) (p' : BoundPair) :
      ComparedAs v w p' ↔ p' = p := ⟨fun hp' => hp'.unique hp, fun hSame => hSame ▸ hp⟩
  refine ⟨p, b, hb, hOnly hp, hOnly hp.swap, hAbove, hBelow, fun hBoth => ?_, ?_⟩
  · exact BoundPair.not_exceeds_swap (hAbove.mp hBoth.1) (hBelow.mp hBoth.2)
  · rw [← hp.not_exceeds_iff, ← hAbove, ← hBelow, Bool.not_eq_true, Bool.not_eq_true]

end

/-- The same instant with two offsets: the texts are in order, and the moments are equal. -/
theorem exceeds_asymm_noon :
    exceeds (.str "2021-03-04T12:00Z") (.str "2021-03-04T14:00+02:00") = .ok false ∧
    exceeds (.str "2021-03-04T14:00+02:00") (.str "2021-03-04T12:00Z") = .ok false ∧
    ∃ p : BoundPair, p.Equal ∧
      ∀ p', ComparedAs (.str "2021-03-04T12:00Z") (.str "2021-03-04T14:00+02:00") p' ↔ p' = p := by
  have hFirst : exceeds (.str "2021-03-04T12:00Z") (.str "2021-03-04T14:00+02:00") = .ok false := by
    decide +kernel
  have hSecond : exceeds (.str "2021-03-04T14:00+02:00") (.str "2021-03-04T12:00Z") =
      .ok false := by decide +kernel
  obtain ⟨p, b, hb, hOnly, -, -, -, -, hEqual⟩ := exceeds_asymm hFirst
  obtain rfl : b = false := by
    rw [hSecond] at hb
    exact (Except.ok.inj hb).symm
  exact ⟨hFirst, hSecond, p, hEqual.mp ⟨rfl, rfl⟩, hOnly⟩

end SparqlSelect
