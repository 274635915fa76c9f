import Mathlib.Data.List.Zip
import SparqlSelect.Proofs.Filter.Ordering

/-!
# What bounds are merged to

The bounds on one variable stand in two queues, and the first lower bound is taken with the first
upper one as long as there are both. Said without the queues, the merged expression has three runs
of parts: the pairs of bounds with the same place in their queues, the lower bounds past the end of
the upper ones, and the upper bounds past the end of the lower ones. One of the last two is always
empty, and each bound is in just one part.

Whether a pair is an interval is found by comparing its values, which comes to nothing if one of
them is an integer beyond the largest double. Then there is no expression at all, although the
bounds could have been written. The values of bounds without a partner are not looked at.

* `MergedPart`, `mergedParts` — the parts of a merged expression.
* `PairsInRange`, `exists_mergedParts_iff` — the bounds that have parts.
* `pairBounds_eq` — pairing by queues gives the texts of these parts.
* `mergedParts_perm` — each bound of either side is in one part.
* `mergedExpression_eq_parts` — the merged expression, and when there is none.
-/

namespace SparqlSelect

/-- The lower bounds among some bounds, in order. -/
def lowersOf (bounds : List Bound) : List Bound := bounds.filter (·.isLower)

/-- The bounds that are upper bounds only, in order. -/
def uppersOf (bounds : List Bound) : List Bound := bounds.filter fun b => !b.isLower && b.isUpper

/-- A part of a merged expression: a lower and an upper bound, both of which have to hold if they
are an interval, or a bound that stands alone. -/
inductive MergedPart where
  | pair (lower upper : Bound) (isInterval : Bool)
  | alone (bound : Bound)

namespace MergedPart

/-- The text of a part. -/
def text : MergedPart → String
  | pair lower upper isInterval =>
    "(" ++ lower.fragment ++ " " ++ (if isInterval then "&&" else "||") ++ " " ++ upper.fragment ++
      ")"
  | alone b => b.fragment

/-- The bounds that a part is made of. -/
def bounds : MergedPart → List Bound
  | pair lower upper _ => [lower, upper]
  | alone b => [b]

/-- A lower and an upper bound; they are an interval if the upper one lies above the lower one. -/
def ofPair (bounds : Bound × Bound) : Except Fault MergedPart :=
  (exceeds bounds.2.value bounds.1.value).map (pair bounds.1 bounds.2)

end MergedPart

/-- The bounds of one queue that come after the end of the other one. -/
def unpaired (own other : List Bound) : List MergedPart := (own.drop other.length).map .alone

/-- The parts of two queues: the bounds in equal places, and what is left of each. -/
def partsOfQueues (lowers uppers : List Bound) : Except Fault (List MergedPart) := do
  let pairs ← (lowers.zip uppers).mapM MergedPart.ofPair
  .ok (pairs ++ (unpaired lowers uppers ++ unpaired uppers lowers))

/-- The parts of the expression that bounds are merged to. -/
def mergedParts (bounds : List Bound) : Except Fault (List MergedPart) :=
  partsOfQueues (lowersOf bounds) (uppersOf bounds)

/-- The values of all pairs can be compared: none of them is an integer out of the range of a
double. -/
def PairsInRange (bounds : List Bound) : Prop :=
  ∀ p ∈ (lowersOf bounds).zip (uppersOf bounds),
    p.1.value.isInRange = true ∧ p.2.value.isInRange = true

/-- The expression that parts are written as, if there are any. -/
def joinedParts (parts : List MergedPart) : Option String :=
  if parts.isEmpty then none else some (" || ".intercalate (parts.map (·.text)))

section

variable {bounds lowers uppers : List Bound} {parts : List MergedPart}

theorem map_text_alone (bs : List Bound) : (bs.map MergedPart.alone).map (·.text) =
    bs.map (·.fragment) := by
  rw [List.map_map]
  rfl

/-- Two queues give the texts of their parts, and fail as the comparisons of their pairs do. -/
theorem pairBounds_eq (lowers uppers : List Bound) :
    pairBounds lowers uppers = (partsOfQueues lowers uppers).map (·.map (·.text)) := by
  induction lowers, uppers using pairBounds.induct with
  | case1 uppers =>
    rw [pairBounds, ← map_text_alone]
    simp [partsOfQueues, unpaired, pure, Except.pure, bind, Except.bind, Except.map]
  | case2 lowers hSome =>
    rw [pairBounds, ← map_text_alone]
    · simp [partsOfQueues, unpaired, pure, Except.pure, bind, Except.bind, Except.map]
    · exact hSome
  | case3 lower lowers upper uppers ih =>
    rw [pairBounds, ih]
    -- the first pair is compared before the others, here as there
    simp only [partsOfQueues, unpaired, List.zip_cons_cons, List.mapM_cons, List.length_cons,
      List.drop_succ_cons, MergedPart.ofPair]
    cases exceeds upper.value lower.value with
    | error fault => rfl
    | ok isInterval =>
      cases (lowers.zip uppers).mapM MergedPart.ofPair with
      | error fault => rfl
      | ok pairs => rfl

/-- Pairs are made of the bounds that they were made from. -/
theorem bounds_of_pairs {pairs : List (Bound × Bound)}
    (h : pairs.mapM MergedPart.ofPair = .ok parts) :
    parts.flatMap (·.bounds) = pairs.flatMap fun p => [p.1, p.2] := by
  rw [mapM_eq_ok_iff] at h
  induction h with
  | nil => rfl
  | cons hPair _ ih =>
    obtain ⟨isInterval, -, rfl⟩ := map_eq_ok_iff.mp hPair
    rw [List.flatMap_cons, List.flatMap_cons, ih]
    rfl

theorem bounds_of_unpaired (own other : List Bound) :
    (unpaired own other).flatMap (·.bounds) = own.drop other.length := by
  rw [unpaired, List.flatMap_map]
  exact List.flatMap_singleton' _

/-- Two queues are the pairs of their items in equal places and what is left of each. -/
theorem zip_drop_perm (lowers uppers : List Bound) :
    ((lowers.zip uppers).flatMap (fun p => [p.1, p.2]) ++
      (lowers.drop uppers.length ++ uppers.drop lowers.length)).Perm (lowers ++ uppers) := by
  induction lowers generalizing uppers with
  | nil => simp
  | cons lower lowers ih =>
    cases uppers with
    | nil => simp
    | cons upper uppers =>
      have hMiddle : (lowers ++ upper :: uppers).Perm (upper :: (lowers ++ uppers)) :=
        List.perm_middle
      exact (((ih uppers).cons upper).trans hMiddle.symm).cons lower

/-- Each bound of either side is in one part, and no other bound is in any. -/
theorem mergedParts_perm (h : mergedParts bounds = .ok parts) :
    (parts.flatMap (·.bounds)).Perm (lowersOf bounds ++ uppersOf bounds) := by
  obtain ⟨pairs, hPairs, hParts⟩ := bind_eq_ok_iff.mp h
  cases hParts
  simp only [List.flatMap_append, bounds_of_pairs hPairs, bounds_of_unpaired]
  exact zip_drop_perm _ _

/-- There are parts exactly if there are bounds. -/
theorem mergedParts_eq_nil_iff (h : mergedParts bounds = .ok parts) :
    parts = [] ↔ lowersOf bounds = [] ∧ uppersOf bounds = [] := by
  have hPerm := mergedParts_perm h
  rw [← List.append_eq_nil_iff]
  constructor
  · rintro rfl
    exact hPerm.nil_eq.symm
  · intro hNone
    rw [hNone, List.perm_nil, List.flatMap_eq_nil_iff] at hPerm
    -- no part is without bounds
    refine List.eq_nil_iff_forall_not_mem.mpr fun part hPart => ?_
    cases part with
    | pair lower upper isInterval => cases hPerm _ hPart
    | alone b => cases hPerm _ hPart

/-- There are parts exactly if the values of every pair are in range. -/
theorem exists_mergedParts_iff (bounds : List Bound) :
    (∃ parts, mergedParts bounds = .ok parts) ↔ PairsInRange bounds := by
  -- a part is made exactly when its two bounds can be compared
  have hPair (p : Bound × Bound) : (∃ part, MergedPart.ofPair p = .ok part) ↔
      p.1.value.isInRange = true ∧ p.2.value.isInRange = true := by
    rw [and_comm, ← exists_exceeds_iff]
    constructor
    · rintro ⟨part, hPart⟩
      obtain ⟨above, hAbove, -⟩ := map_eq_ok_iff.mp hPart
      exact ⟨above, hAbove⟩
    · rintro ⟨above, hAbove⟩
      exact ⟨_, map_eq_ok_iff.mpr ⟨above, hAbove, rfl⟩⟩
  constructor
  · rintro ⟨parts, hParts⟩ p hp
    obtain ⟨pairs, hPairs, -⟩ := bind_eq_ok_iff.mp hParts
    obtain ⟨part, -, hPart⟩ := exists_of_forall₂_left (mapM_eq_ok_iff.mp hPairs) hp
    exact (hPair p).mp ⟨part, hPart⟩
  · intro hAll
    obtain ⟨pairs, hPairs⟩ := exists_forall₂ fun p hp => (hPair p).mpr (hAll p hp)
    exact ⟨_, bind_eq_ok_iff.mpr ⟨pairs, mapM_eq_ok_iff.mpr hPairs, rfl⟩⟩

/-- Parts are missing only because a value is out of range. -/
theorem mergedParts_eq_error {fault : Fault} (h : mergedParts bounds = .error fault) :
    fault = .tooLarge := by
  rw [mergedParts, partsOfQueues] at h
  rcases bind_eq_error_iff.mp h with hPairs | ⟨pairs, -, hDone⟩
  · obtain ⟨-, p, -, -, -, hFault⟩ := mapM_eq_error_iff.mp hPairs
    have hFault : exceeds p.2.value p.1.value = .error fault := map_eq_error_iff.mp hFault
    obtain ⟨-, -, above, hAbove⟩ | ⟨-, hError⟩ := exceeds_cases p.2.value p.1.value
    · rw [hFault] at hAbove
      cases hAbove
    · rw [hFault] at hError
      cases hError
      rfl
  · cases hDone

/-- The merged expression is its parts, joined. -/
theorem mergedExpression_eq_map (bounds : List Bound) :
    mergedExpression bounds = (mergedParts bounds).map joinedParts := by
  rw [mergedExpression]
  change (do
    let texts ← pairBounds (lowersOf bounds) (uppersOf bounds)
    _) = _
  rw [pairBounds_eq, ← mergedParts]
  cases mergedParts bounds with
  | error fault => rfl
  | ok parts => simp [bind, Except.bind, Except.map, joinedParts]

/-- Bounds with a pair that is not in range cannot be merged. -/
theorem mergedExpression_of_not_pairsInRange (h : ¬ PairsInRange bounds) :
    mergedExpression bounds = .error .tooLarge := by
  rw [← exists_mergedParts_iff] at h
  rw [mergedExpression_eq_map]
  cases hParts : mergedParts bounds with
  | ok parts => exact absurd ⟨parts, hParts⟩ h
  | error fault =>
    rw [mergedParts_eq_error hParts]
    rfl

end

/-- A lower bound beyond the largest double, and an upper bound: between them a variable could not
be, and one of them would be enough. -/
def farBounds : List Bound :=
  [⟨.int (tenTo 400), ">", "?x > 5"⟩, ⟨.int 1, "<", "?x < 7"⟩]

/-- The larger of their values ends the comparison. -/
theorem mergedExpression_farBounds : mergedExpression farBounds = .error .tooLarge := by
  refine mergedExpression_of_not_pairsInRange fun hRange => ?_
  have hPair : (⟨.int (tenTo 400), ">", "?x > 5"⟩, ⟨.int 1, "<", "?x < 7"⟩) ∈
      (lowersOf farBounds).zip (uppersOf farBounds) := List.mem_cons_self
  exact absurd (hRange _ hPair).1 (by decide +kernel)

end SparqlSelect
