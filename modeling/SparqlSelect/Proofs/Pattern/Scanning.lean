import SparqlSelect.Proofs.Pattern.Longest

/-!
# Scanning a text for the texts of a pattern

A scan goes through a text from left to right. Where a text of the pattern starts, the longest one
is taken and the scan goes on behind it; any other character is passed. Masking literals is such a
scan, and so is looking for variables.

* `scanFrom` — what a scan gives; the first characters may be left out.
* `scanFrom_append` — a text and what follows it are scanned one by one if nothing that is taken
  goes from the one into the other.
* `exists_of_mem_scanFrom` — what is found was found in a text of the pattern or passed.
-/

namespace SparqlSelect.Pattern

section

variable {α : Type} {p : Pattern} {found : List Char → List α} {passed : Char → List α}

/-- What the texts of a pattern and the characters between them give, from left to right; the first
`skip` characters are dropped. -/
def scanFrom (p : Pattern) (found : List Char → List α) (passed : Char → List α) :
    Nat → List Char → List α
  | _, [] => []
  | skip + 1, _ :: rest => scanFrom p found passed skip rest
  | 0, c :: rest =>
    match p.matchLength? (c :: rest) with
    | some (n + 1) => found ((c :: rest).take (n + 1)) ++ scanFrom p found passed n rest
    | _ => passed c ++ scanFrom p found passed 0 rest

theorem scanFrom_eq_drop (n : Nat) (s : List Char) :
    scanFrom p found passed n s = scanFrom p found passed 0 (s.drop n) := by
  induction n generalizing s with
  | zero => rfl
  | succ n ih =>
    cases s with
    | nil => rfl
    | cons c s => exact ih s

theorem scanFrom_taken {c : Char} {s : List Char} {n : Nat}
    (h : p.matchLength? (c :: s) = some (n + 1)) :
    scanFrom p found passed 0 (c :: s) =
      found ((c :: s).take (n + 1)) ++ scanFrom p found passed n s := by
  rw [scanFrom, h]

theorem scanFrom_passed {c : Char} {s : List Char} (h : p.matchLength? (c :: s) = none) :
    scanFrom p found passed 0 (c :: s) = passed c ++ scanFrom p found passed 0 s := by
  rw [scanFrom, h]

/-- A text is scanned apart from what follows it if this does not make a difference to what is taken
of it. -/
theorem scanFrom_append {rest : List Char}
    (h : ∀ c t, p.matchLength? (c :: t ++ rest) = p.matchLength? (c :: t)) (s : List Char) :
    scanFrom p found passed 0 (s ++ rest) =
      scanFrom p found passed 0 s ++ scanFrom p found passed 0 rest := by
  -- a text of the pattern is taken as a whole, so the induction is on the length of what is left
  induction hLength : s.length using Nat.strongRecOn generalizing s with
  | ind n ih =>
    subst hLength
    cases s with
    | nil => rfl
    | cons c s =>
      have hSame := h c s
      rw [List.cons_append] at hSame ⊢
      rw [scanFrom, scanFrom, hSame]
      split
      · rename_i k hMatch
        obtain ⟨t, after, hSplit, hLength, -⟩ := matchLength?_eq_some_iff.mp hMatch
        have hShort : k ≤ s.length := by
          have := congrArg List.length hSplit
          simp only [List.length_cons, List.length_append] at this
          omega
        have hLess : (s.drop k).length < (c :: s).length := by
          rw [List.length_drop, List.length_cons]
          omega
        rw [scanFrom_eq_drop, scanFrom_eq_drop k s, List.drop_append_of_le_length hShort,
          ih _ hLess (s.drop k) rfl, List.take_succ_cons, List.take_succ_cons,
          List.take_append_of_le_length hShort, List.append_assoc]
      · rw [ih s.length (by simp) s rfl, List.append_assoc]

theorem exists_of_mem_scanFrom {x : α} {n : Nat} {s : List Char}
    (h : x ∈ scanFrom p found passed n s) :
    (∃ t, Matches p t ∧ x ∈ found t) ∨ ∃ c ∈ s, x ∈ passed c := by
  induction s generalizing n with
  | nil => cases n <;> cases h
  | cons d s ih =>
    -- what is left of the text is in the text
    have hLater {m : Nat} (hx : x ∈ scanFrom p found passed m s) :
        (∃ t, Matches p t ∧ x ∈ found t) ∨ ∃ c ∈ d :: s, x ∈ passed c :=
      (ih hx).imp_right fun ⟨c, hc, hFound⟩ => ⟨c, List.mem_cons_of_mem _ hc, hFound⟩
    cases n with
    | succ n => exact hLater h
    | zero =>
      rw [scanFrom] at h
      split at h
      · rename_i k hMatch
        obtain ⟨t, after, hSplit, hLength, hText, -⟩ := matchLength?_eq_some_iff.mp hMatch
        rcases List.mem_append.mp h with hTaken | hRest
        · rw [hSplit, List.take_left' hLength] at hTaken
          exact .inl ⟨t, hText, hTaken⟩
        · exact hLater hRest
      · rcases List.mem_append.mp h with hPassed | hRest
        · exact .inr ⟨d, List.mem_cons_self, hPassed⟩
        · exact hLater hRest

end

end SparqlSelect.Pattern
