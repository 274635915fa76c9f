import SparqlSelect.Fragment.Kind
import SparqlSelect.Proofs.Fragment.Comparison

/-!
# What is accepted at a place of a query

The kinds for the places of a query, as patterns: what the subject, the predicate and the object of
a triple match, and what may be selected.

Kinds that are looked for within a limit are found as they are without one, unless there are more
brackets in the text than the limit lets one go into.

* `acceptsAnyWithin_cases` — the two outcomes of looking for kinds within a limit.
* `acceptsAny_of_within` — what is accepted within a limit is accepted.
-/

namespace SparqlSelect.Kind

open Pattern

variable {v : String}

theorem acceptsAny_var_iff : acceptsAny [var] v = true ↔ Matches Token.var v.toList := by
  simp only [acceptsAny, List.any_cons, List.any_nil, accepts, Bool.or_false, accepts_iff]

/-- What may be the subject of a triple is a variable or a name. -/
theorem matches_of_subject (h : acceptsAny forSubject v = true) :
    Matches (Token.var ||| Token.iri ||| Token.prefixedName) v.toList := by
  simp only [acceptsAny, forSubject, List.any_cons, List.any_nil, accepts, Bool.or_eq_true,
    Bool.or_false, accepts_iff] at h
  rcases h with h | h | h
  · exact .left (.left h)
  · exact .left (.right h)
  · exact .right h

/-- No term is empty. -/
theorem ne_empty_of_subject (h : acceptsAny forSubject v = true) : v ≠ "" := by
  rintro rfl
  exact absurd h (by decide)

/-- What may be the predicate of a triple is a variable, a name or a path. -/
theorem matches_of_predicate (h : acceptsAny forPredicate v = true) :
    Matches (Token.var ||| Token.iri ||| Token.prefixedName ||| Token.path) v.toList := by
  simp only [acceptsAny, forPredicate, List.any_cons, List.any_nil, accepts, Bool.or_eq_true,
    Bool.or_false, accepts_iff] at h
  rcases h with h | h | h | h
  · exact .left (.left (.left h))
  · exact .left (.left (.right h))
  · exact .left (.right h)
  · exact .right h

/-- The kinds of objects stay apart, since arguments about them differ. -/
theorem acceptsAny_forObject_iff : acceptsAny forObject v = true ↔
    Matches Token.var v.toList ∨ Matches Token.iri v.toList ∨ Matches Token.prefixedName v.toList ∨
      Matches Token.native v.toList ∨ Matches Token.circle v.toList ∨
      Matches Token.polygon v.toList := by
  simp only [acceptsAny, forObject, List.any_cons, List.any_nil, accepts, Bool.or_eq_true,
    Bool.or_false, accepts_iff]

theorem acceptsAny_forSelect_iff : acceptsAny forSelect v = true ↔
    Matches Token.var v.toList ∨
      Matches Token.assignment v.toList ∧ bracketsBalanced (assignedCall v.toList) = true := by
  simp only [acceptsAny, forSelect, List.any_cons, List.any_nil, accepts, Bool.or_eq_true,
    Bool.and_eq_true, Bool.or_false, accepts_iff]

-- ---------------------------------------------------------------------------
-- Kinds within a limit
-- ---------------------------------------------------------------------------

variable {limit : Nat} {kinds : List Kind}

/-- A kind is decided within a limit as it is without, or there are too many brackets. -/
theorem acceptsWithin_cases (limit : Nat) (k : Kind) (s : List Char) :
    k.acceptsWithin limit s = .ok (k.accepts s) ∨
      k.acceptsWithin limit s = .error .tooDeep ∧ limit + 1 < s.count '(' := by
  cases k with
  | nestedComparison => exact nestedWithin_cases limit s
  | _ => exact .inl rfl

/-- So are all kinds, gone through one after the other. -/
theorem acceptsAnyWithin_cases (limit : Nat) (kinds : List Kind) (v : String) :
    acceptsAnyWithin limit kinds v = .ok (acceptsAny kinds v) ∨
      acceptsAnyWithin limit kinds v = .error .tooDeep ∧ limit + 1 < v.toList.count '(' := by
  simp only [acceptsAnyWithin, acceptsAny]
  induction kinds with
  | nil => exact .inl rfl
  | cons k kinds ih =>
    rw [List.anyM_cons, List.any_cons]
    rcases acceptsWithin_cases limit k v.toList with hk | ⟨hk, hCount⟩
    · rw [hk, ok_bind]
      cases hAccepts : k.accepts v.toList with
      -- a kind that refuses hands the text to the next one, a kind that gives up stops the search
      | true => exact .inl rfl
      | false => simpa using ih
    · exact .inr ⟨by rw [hk]; rfl, hCount⟩

/-- What is accepted within a limit is accepted. -/
theorem acceptsAny_of_within (h : acceptsAnyWithin limit kinds v = .ok true) :
    acceptsAny kinds v = true := by
  rcases acceptsAnyWithin_cases limit kinds v with hOk | ⟨hError, -⟩
  · exact Except.ok.inj (hOk.symm.trans h)
  · rw [hError] at h
    cases h

/-- A condition is a call or a comparison, and then its brackets are not gone into, or it is an
expression that is read within the limit. -/
theorem acceptsAnyWithin_forFilter (limit : Nat) (v : String) :
    acceptsAnyWithin limit forFilter v =
      if Kind.function.accepts v.toList || isComparison v.toList then .ok true
      else nestedWithin limit v.toList := by
  have hSingle : Kind.comparison.accepts v.toList = isComparison v.toList := rfl
  simp only [acceptsAnyWithin, forFilter, List.anyM_cons, List.anyM_nil, acceptsWithin, ok_bind,
    hSingle]
  -- the three kinds are tried in this order, and only the last one can run out of room
  cases Kind.function.accepts v.toList with
  | true => rfl
  | false =>
    cases isComparison v.toList with
    | true => rfl
    | false =>
      cases nestedWithin limit v.toList with
      | error f => rfl
      | ok nested => cases nested <;> rfl

end SparqlSelect.Kind
