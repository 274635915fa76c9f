import SparqlSelect.Fragment.Token
import SparqlSelect.Pattern.Matching

/-!
# What the texts of a pattern end in

What the last character of a text may be follows from the shape of its pattern.

* `EndsIn` — with a rule for each way to build a pattern.
* `isAlphanumeric_of_isBlank` — no white space is part of a word.
-/

namespace SparqlSelect

namespace Unicode

theorem exists_of_inRanges {n : Nat} {ranges : List (Nat × Nat)} (h : inRanges n ranges = true) :
    ∃ r ∈ ranges, r.1 ≤ n ∧ n ≤ r.2 := by
  induction ranges with
  | nil => cases h
  | cons r rest ih =>
    obtain ⟨first, last⟩ := r
    rw [inRanges] at h
    split at h
    · cases h
    · rename_i hFirst
      rcases Bool.or_eq_true_iff.mp h with hLast | hRest
      · exact ⟨_, List.mem_cons_self, Nat.not_lt.mp hFirst, of_decide_eq_true hLast⟩
      · obtain ⟨r, hr, hn⟩ := ih hRest
        exact ⟨r, List.mem_cons_of_mem _ hr, hn⟩

/-- No range of white space meets a range of alphanumerics or a block of digits. -/
theorem blankRanges_apart :
    (∀ r ∈ blankRanges, ∀ s ∈ alphanumericRanges, r.2 < s.1 ∨ s.2 < r.1) ∧
      ∀ r ∈ blankRanges, ∀ z ∈ decimalZeros, r.2 < z ∨ z + 9 < r.1 := by
  have hTables : (blankRanges.all fun r =>
      (alphanumericRanges.all fun s => Nat.blt r.2 s.1 || Nat.blt s.2 r.1) &&
        decimalZeros.all fun z => Nat.blt r.2 z || Nat.blt (z + 9) r.1) = true := by
    decide +kernel
  simp only [List.all_eq_true, Bool.and_eq_true, Bool.or_eq_true, Nat.blt_eq] at hTables
  exact ⟨fun r hr => (hTables r hr).1, fun r hr => (hTables r hr).2⟩

end Unicode

/-- White space is not alphanumeric. -/
theorem isAlphanumeric_of_isBlank {c : Char} (h : isBlank c = true) : isAlphanumeric c = false := by
  cases hAlpha : isAlphanumeric c with
  | false => rfl
  | true =>
    obtain ⟨r, hr, hrLow, hrHigh⟩ := Unicode.exists_of_inRanges h
    obtain ⟨s, hs, hsLow, hsHigh⟩ := Unicode.exists_of_inRanges hAlpha
    rcases Unicode.blankRanges_apart.1 r hr s hs with hLess | hLess <;> omega

theorem CharClass.contains_anyOf_two {a b c : Char} (h : (anyOf a [b]).contains c = true) :
    c = a ∨ c = b := by
  simpa using h

namespace Pattern

/-- Every text of a pattern that is not empty ends in a character with a property. -/
def EndsIn (P : Char → Prop) (p : Pattern) : Prop := ∀ s, Matches p s → ∀ c ∈ s.getLast?, P c

variable {P : Char → Prop} {p q : Pattern} {k : CharClass}

theorem endsIn_nothing : EndsIn P nothing := by
  intro s h c hc
  rw [matches_nothing_iff.mp h] at hc
  cases hc

theorem endsIn_chars (hk : ∀ c, k.contains c = true → P c) : EndsIn P (chars k) := by
  intro s h c hc
  obtain ⟨d, hd, rfl⟩ := matches_chars_iff.mp h
  cases hc
  exact hk d hd

theorem EndsIn.seq (hp : EndsIn P p) (hq : EndsIn P q) : EndsIn P (p ++ q) := by
  intro s h c hc
  obtain ⟨t, u, ht, hu, rfl⟩ := matches_seq_iff.mp h
  rw [List.getLast?_append, Option.mem_def, Option.or_eq_some_iff] at hc
  rcases hc with hc | ⟨-, hc⟩
  · exact hq u hu c hc
  · exact hp t ht c hc

/-- A sequence ends as its second part does, unless that may be empty. -/
theorem EndsIn.afterAny (hq : EndsIn P q) (hSome : q.acceptsEmpty = false) :
    EndsIn P (p ++ q) := by
  intro s h c hc
  obtain ⟨t, u, -, hu, rfl⟩ := matches_seq_iff.mp h
  rw [List.getLast?_append, Option.mem_def, Option.or_eq_some_iff] at hc
  rcases hc with hc | ⟨hNone, -⟩
  · exact hq u hu c hc
  · rw [List.getLast?_eq_none_iff.mp hNone, ← acceptsEmpty_iff, hSome] at hu
    cases hu

theorem EndsIn.alt (hp : EndsIn P p) (hq : EndsIn P q) : EndsIn P (p ||| q) := by
  intro s h c hc
  rcases matches_alt_iff.mp h with h | h
  · exact hp s h c hc
  · exact hq s h c hc

theorem EndsIn.optional (hp : EndsIn P p) : EndsIn P (optional p) := hp.alt endsIn_nothing

theorem EndsIn.many (hp : EndsIn P p) : EndsIn P (many p) := by
  intro s h
  refine matches_many_induction (P := fun s => ∀ c ∈ s.getLast?, P c) ?_ ?_ h
  · intro c hc
    cases hc
  · intro t u ht _ ih c hc
    rw [List.getLast?_append, Option.mem_def, Option.or_eq_some_iff] at hc
    rcases hc with hc | ⟨-, hc⟩
    · exact ih c hc
    · exact hp t ht c hc

theorem endsIn_blanks (hP : ∀ c, isBlank c = true → P c) : EndsIn P blanks :=
  EndsIn.many (endsIn_chars hP)

end Pattern

end SparqlSelect
