import SparqlSelect.Proofs.Pattern.Ends

/-!
# White space in the texts of a pattern

Whether the texts of a pattern hold white space is told from its classes. A class is compared with
the ranges of white space, so this can be decided for every pattern.

* `Pattern.avoidsBlank` — no text of the pattern holds white space.
* `isBlank_of_matches_blanks` — a text of `blanks` holds nothing else.
-/

namespace SparqlSelect

namespace CharClass

/-- Whether all white space is in a class, as far as its shape tells. -/
def coversBlank : CharClass → Bool
  | blank => true
  | either a b => a.coversBlank || b.coversBlank
  | one _ | between _ _ | word | decimal | outside _ => false

/-- Whether no white space is in a class, as far as its shape tells. -/
def avoidsBlank : CharClass → Bool
  | one c => !isBlank c
  | between first last =>
    Unicode.blankRanges.all fun r => r.2 < first.toNat || last.toNat < r.1
  | word | decimal => true
  | blank => false
  | either a b => a.avoidsBlank && b.avoidsBlank
  | outside a => a.coversBlank

variable {k : CharClass} {c : Char}

theorem contains_of_coversBlank (h : k.coversBlank = true) (hc : isBlank c = true) :
    k.contains c = true := by
  induction k with
  | blank => exact hc
  | either a b iha ihb =>
    rcases Bool.or_eq_true_iff.mp h with h | h
    · simp [contains, iha h]
    · simp [contains, ihb h]
  | one _ | between _ _ | word | decimal | outside _ _ => cases h

/-- Decimal digits are not white space. -/
theorem isDecimal_of_isBlank (h : isBlank c = true) : isDecimal c = false := by
  obtain ⟨r, hr, hLow, hHigh⟩ := Unicode.exists_of_inRanges h
  -- no range of digits reaches into a range of white space
  have hNone : ∀ zeros : List Nat, (∀ z ∈ zeros, r.2 < z ∨ z + 9 < r.1) →
      Unicode.digitIn c.toNat zeros = none := by
    intro zeros hZeros
    induction zeros with
    | nil => rfl
    | cons z rest ih =>
      have hHead := hZeros z List.mem_cons_self
      rw [Unicode.digitIn]
      split
      · rfl
      · rw [if_neg (by omega)]
        exact ih fun y hy => hZeros y (List.mem_cons_of_mem _ hy)
  rw [isDecimal, decimalValue?, hNone _ (Unicode.blankRanges_apart.2 r hr)]
  rfl

theorem isBlank_of_avoidsBlank (h : k.avoidsBlank = true) (hc : k.contains c = true) :
    isBlank c = false := by
  -- induction on the class: ranges are compared with the ranges of white space
  induction k with
  | one a =>
    obtain rfl := beq_iff_eq.mp hc
    simpa [avoidsBlank] using h
  | between first last =>
    rw [Bool.eq_false_iff]
    intro hBlank
    obtain ⟨r, hr, hLow, hHigh⟩ := Unicode.exists_of_inRanges hBlank
    have hApart := List.all_eq_true.mp h r hr
    simp only [contains, Bool.and_eq_true, decide_eq_true_eq, Bool.or_eq_true] at hc hApart
    have hFirst : first.toNat ≤ c.toNat := hc.1
    have hLast : c.toNat ≤ last.toNat := hc.2
    omega
  | word =>
    rw [Bool.eq_false_iff]
    intro hBlank
    rcases Bool.or_eq_true_iff.mp hc with hUnderscore | hAlpha
    · rw [beq_iff_eq.mp hUnderscore] at hBlank
      exact absurd hBlank (by decide)
    · rw [isAlphanumeric_of_isBlank hBlank] at hAlpha
      cases hAlpha
  | decimal =>
    rw [Bool.eq_false_iff]
    intro hBlank
    rw [contains, isDecimal_of_isBlank hBlank] at hc
    cases hc
  | blank => cases h
  | either a b iha ihb =>
    obtain ⟨ha, hb⟩ := Bool.and_eq_true_iff.mp h
    exact (Bool.or_eq_true_iff.mp hc).elim (iha ha) (ihb hb)
  | outside a _ =>
    rw [Bool.eq_false_iff]
    intro hBlank
    rw [contains, contains_of_coversBlank h hBlank] at hc
    cases hc

end CharClass

namespace Pattern

/-- Whether no text of a pattern holds white space, as far as its classes tell. -/
def avoidsBlank : Pattern → Bool
  | nothing => true
  | chars k => k.avoidsBlank
  | seq p q => p.avoidsBlank && q.avoidsBlank
  | alt p q => p.avoidsBlank && q.avoidsBlank
  | many p => p.avoidsBlank

variable {p : Pattern} {s : List Char}

theorem isBlank_of_matches (hText : Matches p s) (h : p.avoidsBlank = true) :
    ∀ c ∈ s, isBlank c = false := by
  induction hText with
  | nothing => simp
  | chars hc =>
    rw [List.forall_mem_singleton]
    exact CharClass.isBlank_of_avoidsBlank h hc
  | seq _ _ ihp ihq =>
    obtain ⟨hp, hq⟩ := Bool.and_eq_true_iff.mp h
    exact List.forall_mem_append.mpr ⟨ihp hp, ihq hq⟩
  | left _ ih => exact ih (Bool.and_eq_true_iff.mp h).1
  | right _ ih => exact ih (Bool.and_eq_true_iff.mp h).2
  | stop => simp
  | more _ _ ihp ihm => exact List.forall_mem_append.mpr ⟨ihp h, ihm h⟩

theorem isBlank_of_matches_blanks (h : Matches blanks s) : ∀ c ∈ s, isBlank c = true := by
  refine matches_many_induction (P := fun s => ∀ c ∈ s, isBlank c = true) (by simp) ?_ h
  intro t u ht _ ih
  obtain ⟨c, hc, rfl⟩ := matches_chars_iff.mp ht
  exact List.forall_mem_append.mpr ⟨List.forall_mem_singleton.mpr hc, ih⟩

/-- White space that has to be there ends in white space. -/
theorem exists_of_matches_someBlanks (h : Matches someBlanks s) :
    ∃ t c, s = t ++ [c] ∧ isBlank c = true := by
  obtain ⟨t, u, ht, hu, rfl⟩ := matches_seq_iff.mp h
  obtain ⟨c, hc, rfl⟩ := matches_chars_iff.mp ht
  have hAll : ∀ d ∈ c :: u, isBlank d = true :=
    List.forall_mem_cons.mpr ⟨hc, isBlank_of_matches_blanks hu⟩
  obtain ⟨init, last, hSplit⟩ := (List.eq_nil_or_concat (c :: u)).resolve_left (by simp)
  rw [List.concat_eq_append] at hSplit
  exact ⟨init, last, hSplit, hAll last (by simp [hSplit])⟩

end Pattern

end SparqlSelect
