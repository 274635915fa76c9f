import SparqlSelect.Fragment.Comparison
import SparqlSelect.Proofs.Fragment.Quoted
import SparqlSelect.Proofs.Traced.Success

/-!
# How comparisons are read

An expression is read with fuel and with room for brackets inside brackets. Every token takes
something off the text, so a reader that has enough fuel for its text never runs out, and two
readers that have enough agree. Room is another matter: a reader that has too little of it stops
with a failure of its own. Short of that, readers with more and with less room agree, and each
bracket that it was in at the time stands in the text.

A comparison of a variable with a typed text is read past the quoted text as a whole. So what is
left of it does not depend on what stands between the quotes, and neither does whether the whole is
a comparison or an expression.

* `Takes`, `takes_of_read` — what the reader takes of a text, step by step and without fuel.
* `read_eq_of_le` — enough fuel is as good as more.
* `read_runsOutOr`, `lt_count_of_read_depth` — the two facts about room.
* `restAfter_expression` and so on — reading with enough fuel, an equation for each part.
* `comparison?_quoted` — what is left after a comparison with a quoted text.
* `isComparison_quoted` — two comparisons that differ in the quoted text.
-/

namespace SparqlSelect

namespace Comparison

open Pattern

variable {p : Pattern} {s s' t rest : List Char} {room : Room} {part : Part} {n m limit : Nat}

-- ---------------------------------------------------------------------------
-- What is taken
-- ---------------------------------------------------------------------------

/-- A token stands behind gaps. -/
theorem exists_of_token? (h : token? p s = some rest) :
    ∃ gap v, s = gap ++ v ++ rest ∧ (∀ c ∈ gap, isGap c = true) ∧ Matches p v := by
  obtain ⟨v, hSplit, hText, -⟩ := after?_eq_some_iff.mp h
  refine ⟨s.takeWhile isGap, v, ?_, List.all_eq_true.mp List.all_takeWhile, hText⟩
  rw [List.append_assoc, ← hSplit]
  exact List.takeWhile_append_dropWhile.symm

/-- What must be found and is found is an answer, and the only one. -/
theorem expect_eq_ok_iff {found : Option (List Char)} :
    expect found = .ok rest ↔ found = some rest := by
  cases found <;> simp [expect]

/-- What has to be there is never too deep. -/
theorem expect_ne_depth (found : Option (List Char)) : expect found ≠ .error .depth := by
  cases found <;> simp [expect]

/-- What the reader takes of a text, and what is left of it. -/
inductive Takes : Room → Part → List Char → List Char → Prop
  | comparison {room : Room} {s rest : List Char} : comparison? s = some rest →
    Takes room .operand s rest
  | bracket {room inside : Room} {s t u rest : List Char} : comparison? s = none →
    token? (char '(') s = some t → room.enter = .ok inside → Takes inside .expression t u →
    token? (char ')') u = some rest → Takes room .operand s rest
  | expression {room : Room} {s t rest : List Char} : Takes room .operand s t →
    Takes room .joined t rest → Takes room .expression s rest
  | more {room : Room} {s t u rest : List Char} : token? Token.connective s = some t →
    Takes room .operand t u → Takes room .joined u rest → Takes room .joined s rest
  | done {room : Room} {s : List Char} : Takes room .joined s s

/-- Whatever is read is taken step by step. -/
theorem takes_of_read (h : read n room part s = .ok rest) : Takes room part s rest := by
  -- induction on the fuel, then one rule for each branch of the reader
  induction n generalizing room part s rest with
  | zero => cases h
  | succ n ih =>
    cases part with
    | operand =>
      rw [read] at h
      split at h
      · rename_i hComparison
        cases h
        exact .comparison hComparison
      · rename_i hNone
        obtain ⟨t, hOpen, h⟩ := bind_eq_ok_iff.mp h
        obtain ⟨inside, hInside, h⟩ := bind_eq_ok_iff.mp h
        obtain ⟨u, hInner, hClose⟩ := bind_eq_ok_iff.mp h
        exact .bracket hNone (expect_eq_ok_iff.mp hOpen) hInside (ih hInner)
          (expect_eq_ok_iff.mp hClose)
    | expression =>
      rw [read] at h
      obtain ⟨t, hOperand, hJoined⟩ := bind_eq_ok_iff.mp h
      exact .expression (ih hOperand) (ih hJoined)
    | joined =>
      rw [read] at h
      split at h
      · rename_i u hRead
        obtain ⟨t, hConnective, hOperand⟩ := bind_eq_ok_iff.mp hRead
        exact .more (expect_eq_ok_iff.mp hConnective) (ih hOperand) (ih h)
      · cases h
        exact .done
      · cases h

/-- What the reader takes is a derivation of the grammar it follows. -/
theorem takes_of_restAfter (h : restAfter room part s = .ok rest) : Takes room part s rest :=
  takes_of_read h

-- ---------------------------------------------------------------------------
-- Fuel
-- ---------------------------------------------------------------------------

/-- Skipping gaps makes no text longer. -/
theorem length_skipGaps_le (s : List Char) : (skipGaps s).length ≤ s.length :=
  (List.dropWhile_sublist _).length_le

/-- A token takes something off the text. -/
theorem length_of_token? (hSome : p.acceptsEmpty = false) (h : token? p s = some rest) :
    rest.length < s.length :=
  Nat.lt_of_lt_of_le (length_of_after? hSome h) (length_skipGaps_le s)

/-- A single comparison takes at least one character, which is what the reader's recursion goes down
by. -/
theorem length_of_comparison? (h : comparison? s = some rest) : rest.length < s.length := by
  obtain ⟨r, hVar, h⟩ := Option.bind_eq_some_iff.mp h
  obtain ⟨r', hOperator, hValue⟩ := Option.bind_eq_some_iff.mp h
  have hVarLength := length_of_token? rfl hVar
  have hOperatorLength := length_of_token? rfl hOperator
  have hValueLength := length_of_token? rfl hValue
  omega

/-- Reading leaves no more than there was, and less unless there may be nothing to read. -/
theorem Takes.length (h : Takes room part s rest) :
    rest.length ≤ s.length ∧ (part ≠ .joined → rest.length < s.length) := by
  -- every token takes a character, so only the empty rule takes none
  induction h with
  | comparison hComparison =>
    have hLess := length_of_comparison? hComparison
    exact ⟨Nat.le_of_lt hLess, fun _ => hLess⟩
  | @bracket _ _ s t u rest _ hOpen _ _ hClose ih =>
    have hOpenLength := length_of_token? rfl hOpen
    have hCloseLength := length_of_token? rfl hClose
    have hLess : rest.length < s.length := by omega
    exact ⟨Nat.le_of_lt hLess, fun _ => hLess⟩
  | @expression _ s t rest _ _ ihOperand ihJoined =>
    have hOperandLength := ihOperand.2 (by decide)
    have hLess : rest.length < s.length := by omega
    exact ⟨Nat.le_of_lt hLess, fun _ => hLess⟩
  | more hConnective _ _ ihOperand ihJoined =>
    have hConnectiveLength := length_of_token? rfl hConnective
    exact ⟨by omega, fun hOther => absurd rfl hOther⟩
  | done => exact ⟨Nat.le_refl _, fun hOther => absurd rfl hOther⟩

/-- Readers that have enough fuel read the same. -/
theorem read_eq_of_le (hn : part.fuel s ≤ n) (hm : part.fuel s ≤ m) :
    read n room part s = read m room part s := by
  -- each part goes on with less text, for which what is left of either fuel is enough again
  induction n generalizing m room part s with
  | zero => cases part <;> cases hn
  | succ n ih =>
    cases m with
    | zero => cases part <;> cases hm
    | succ m =>
      cases part with
      | operand =>
        simp only [Part.fuel] at hn hm
        simp only [read]
        split
        · rfl
        · refine bind_congr_of_ok fun t hOpen => bind_congr_of_ok fun inside _ => ?_
          have hOpenLength := length_of_token? rfl (expect_eq_ok_iff.mp hOpen)
          rw [ih (m := m) (by simp only [Part.fuel]; omega) (by simp only [Part.fuel]; omega)]
      | expression =>
        simp only [Part.fuel] at hn hm
        simp only [read]
        have hOperand : read n room .operand s = read m room .operand s :=
          ih (by simp only [Part.fuel]; omega) (by simp only [Part.fuel]; omega)
        rw [hOperand]
        refine bind_congr_of_ok fun t hOperand => ?_
        have hOperandLength := (takes_of_read hOperand).length.2 (by decide)
        exact ih (by simp only [Part.fuel]; omega) (by simp only [Part.fuel]; omega)
      | joined =>
        simp only [Part.fuel] at hn hm
        simp only [read]
        -- the reader looks at an operand first to decide whether to go on, so this comes first
        have hOperand : (expect (token? Token.connective s) >>= read n room .operand) =
            (expect (token? Token.connective s) >>= read m room .operand) := by
          refine bind_congr_of_ok fun t hConnective => ?_
          have hConnectiveLength := length_of_token? rfl (expect_eq_ok_iff.mp hConnective)
          exact ih (by simp only [Part.fuel]; omega) (by simp only [Part.fuel]; omega)
        rw [hOperand]
        split
        · rename_i u hRead
          obtain ⟨t, hConnective, hRead⟩ := bind_eq_ok_iff.mp hRead
          have hConnectiveLength := length_of_token? rfl (expect_eq_ok_iff.mp hConnective)
          have hReadLength := (takes_of_read hRead).length.1
          exact ih (by simp only [Part.fuel]; omega) (by simp only [Part.fuel]; omega)
        · rfl
        · rfl

/-- Fuel beyond the length of the text changes nothing. -/
theorem read_eq_restAfter (h : part.fuel s ≤ n) : read n room part s = restAfter room part s :=
  read_eq_of_le h (Nat.le_refl _)

/-- An expression is an operand and what is joined to it. -/
theorem restAfter_expression (room : Room) (s : List Char) :
    restAfter room .expression s = restAfter room .operand s >>= restAfter room .joined := by
  rw [restAfter, Part.fuel, read, read_eq_restAfter (by simp only [Part.fuel]; omega)]
  refine bind_congr_of_ok fun t hOperand => ?_
  have hLength := (takes_of_restAfter hOperand).length.2 (by decide)
  exact read_eq_restAfter (by simp only [Part.fuel]; omega)

/-- A comparison is an operand. -/
theorem restAfter_comparison (h : comparison? s = some rest) :
    restAfter room .operand s = .ok rest := by
  rw [restAfter, Part.fuel, read, h]

/-- Where no comparison stands, an operand is an expression in brackets. -/
theorem restAfter_operand (h : comparison? s = none) :
    restAfter room .operand s = expect (token? (char '(') s) >>= fun t =>
      room.enter >>= fun inside =>
      restAfter inside .expression t >>= fun u => expect (token? (char ')') u) := by
  rw [restAfter, Part.fuel, read, h]
  refine bind_congr_of_ok fun t hOpen => bind_congr_of_ok fun inside _ => ?_
  have hLength := length_of_token? rfl (expect_eq_ok_iff.mp hOpen)
  rw [read_eq_restAfter (by simp only [Part.fuel]; omega)]

/-- Operands are joined as long as a connective and an operand follow. -/
theorem restAfter_joined (room : Room) (s : List Char) :
    restAfter room .joined s =
      match expect (token? Token.connective s) >>= restAfter room .operand with
      | .ok rest => restAfter room .joined rest
      | .error .mismatch => .ok s
      | .error .depth => .error .depth := by
  -- the fuel that is left covers the operand, as the connective took a character
  have hOperand : (expect (token? Token.connective s) >>= read (2 * s.length) room .operand) =
      (expect (token? Token.connective s) >>= restAfter room .operand) := by
    refine bind_congr_of_ok fun t hConnective => ?_
    have hLength := length_of_token? rfl (expect_eq_ok_iff.mp hConnective)
    exact read_eq_restAfter (by simp only [Part.fuel]; omega)
  rw [restAfter, Part.fuel, read, hOperand]
  cases hRead : expect (token? Token.connective s) >>= restAfter room .operand with
  | ok u =>
    obtain ⟨t, hConnective, hAfter⟩ := bind_eq_ok_iff.mp hRead
    have hLength := length_of_token? rfl (expect_eq_ok_iff.mp hConnective)
    have hReadLength := (takes_of_restAfter hAfter).length.1
    exact read_eq_restAfter (by simp only [Part.fuel]; omega)
  | error e => cases e <;> rfl

/-- Where no connective stands, nothing more is read. -/
theorem restAfter_joined_none (h : token? Token.connective s = none) :
    restAfter room .joined s = .ok s := by
  rw [restAfter_joined, h]
  rfl

/-- Reading on after an operand is no mismatch. -/
theorem restAfter_joined_ne_mismatch (room : Room) (s : List Char) :
    restAfter room .joined s ≠ .error .mismatch := by
  -- strong induction on the length: each connective with its operand takes a character at least
  induction hLength : s.length using Nat.strongRecOn generalizing s with
  | ind n ih =>
    subst hLength
    rw [restAfter_joined]
    split
    · rename_i u hRead
      obtain ⟨t, hConnective, hRead⟩ := bind_eq_ok_iff.mp hRead
      have hLess := length_of_token? rfl (expect_eq_ok_iff.mp hConnective)
      have hReadLength := (takes_of_restAfter hRead).length.1
      exact ih u.length (by omega) u rfl
    · nofun
    · nofun

-- ---------------------------------------------------------------------------
-- Room
-- ---------------------------------------------------------------------------

/-- The first computation runs out of room, or the second does the same as the first. -/
def RunsOutOr {α : Type} (x y : Except Obstacle α) : Prop := x = .error .depth ∨ y = x

/-- Two steps in a row run out of room, or do the same. -/
theorem RunsOutOr.bind {α β : Type} {x y : Except Obstacle α} {f g : α → Except Obstacle β}
    (h : RunsOutOr x y) (hfg : ∀ a, RunsOutOr (f a) (g a)) : RunsOutOr (x >>= f) (y >>= g) := by
  obtain rfl | rfl := h
  · exact .inl rfl
  · cases y with
    | error e => exact .inr rfl
    | ok a => exact hfg a

/-- A reader with a limit runs out of room, or reads what a reader without a limit reads. -/
theorem read_runsOutOr (n limit : Nat) (part : Part) (s : List Char) :
    RunsOutOr (read n (some limit) part s) (read n none part s) := by
  induction n generalizing limit part s with
  | zero => exact .inr rfl
  | succ n ih =>
    cases part with
    | operand =>
      simp only [read]
      split
      · exact .inr rfl
      · refine RunsOutOr.bind (.inr rfl) fun t => ?_
        -- only here does the limit matter: a bracket is gone into, or there is no room for it
        cases limit with
        | zero => exact .inl rfl
        | succ limit => exact (ih limit .expression t).bind fun _ => .inr rfl
    | expression =>
      simp only [read]
      exact (ih limit .operand s).bind fun t => ih limit .joined t
    | joined =>
      simp only [read]
      have hOperand := RunsOutOr.bind (x := expect (token? Token.connective s)) (.inr rfl)
        fun t => ih limit .operand t
      -- what comes next depends on how the operand behind a connective was read
      obtain hDepth | hSame := hOperand
      · exact .inl (by rw [hDepth])
      · rw [hSame]
        split
        · exact ih limit .joined _
        · exact .inr rfl
        · exact .inl rfl

/-- What is left behind a token is the end of the text. -/
theorem suffix_of_token? (h : token? p s = some rest) : rest <:+ s := by
  obtain ⟨gap, v, rfl, -, -⟩ := exists_of_token? h
  exact ⟨gap ++ v, rfl⟩

/-- An opening bracket that is read is one more than there are behind it. -/
theorem count_of_open (h : token? (char '(') s = some rest) :
    rest.count '(' < s.count '(' := by
  obtain ⟨gap, v, hSplit, -, hText⟩ := exists_of_token? h
  obtain rfl := eq_of_matches_word (w := ['(']) hText
  simp only [hSplit, List.count_append, List.count_singleton_self]
  omega

/-- What is left is the end of the text. -/
theorem Takes.suffix (h : Takes room part s rest) : rest <:+ s := by
  induction h with
  | comparison hComparison =>
    obtain ⟨r, hVar, hRest⟩ := Option.bind_eq_some_iff.mp hComparison
    obtain ⟨r', hOperator, hValue⟩ := Option.bind_eq_some_iff.mp hRest
    exact (suffix_of_token? hValue).trans
      ((suffix_of_token? hOperator).trans (suffix_of_token? hVar))
  | bracket _ hOpen _ _ hClose ih =>
    exact (suffix_of_token? hClose).trans (ih.trans (suffix_of_token? hOpen))
  | expression _ _ ihOperand ihJoined => exact ihJoined.trans ihOperand
  | more hConnective _ _ ihOperand ihJoined =>
    exact ihJoined.trans (ihOperand.trans (suffix_of_token? hConnective))
  | done => exact List.suffix_refl _

/-- A reader that runs out of room has met more brackets than it had room for. -/
theorem lt_count_of_read_depth (h : read n (some limit) part s = .error .depth) :
    limit < s.count '(' := by
  -- brackets of what is left are brackets of the text, so it is enough to find them there
  have hBehind {k : Nat} {rest s : List Char} (hLess : k < rest.count '(') (hSuffix : rest <:+ s) :
      k < s.count '(' := Nat.lt_of_lt_of_le hLess (hSuffix.sublist.count_le '(')
  induction n generalizing limit part s with
  | zero => cases h
  | succ n ih =>
    cases part with
    | operand =>
      rw [read] at h
      split at h
      · cases h
      rcases bind_eq_error_iff.mp h with hOpen | ⟨t, hOpen, hRest⟩
      · exact absurd hOpen (expect_ne_depth _)
      have hCount := count_of_open (expect_eq_ok_iff.mp hOpen)
      cases limit with
      | zero => omega
      | succ limit =>
        -- the bracket that was met counts, and the others stand behind it
        rcases bind_eq_error_iff.mp hRest with hInside | ⟨inside, hInside, hRest⟩
        · cases hInside
        cases hInside
        rcases bind_eq_error_iff.mp hRest with hInner | ⟨u, -, hClose⟩
        · have hInnerCount := ih hInner
          omega
        · exact absurd hClose (expect_ne_depth _)
    | expression =>
      rw [read] at h
      rcases bind_eq_error_iff.mp h with hOperand | ⟨t, hOperand, hJoined⟩
      · exact ih hOperand
      · exact hBehind (ih hJoined) (takes_of_read hOperand).suffix
    | joined =>
      rw [read] at h
      split at h
      · rename_i u hRead
        obtain ⟨t, hConnective, hOperand⟩ := bind_eq_ok_iff.mp hRead
        have hConnectiveSuffix := suffix_of_token? (expect_eq_ok_iff.mp hConnective)
        exact hBehind (ih h) ((takes_of_read hOperand).suffix.trans hConnectiveSuffix)
      · cases h
      · rename_i hRead
        rcases bind_eq_error_iff.mp hRead with hConnective | ⟨t, hConnective, hOperand⟩
        · exact absurd hConnective (expect_ne_depth _)
        · exact hBehind (ih hOperand) (suffix_of_token? (expect_eq_ok_iff.mp hConnective))

/-- Readers that take the same first comparison off two texts read both alike. -/
theorem restAfter_expression_congr (hSame : comparison? s = comparison? s')
    (hOpen : token? (char '(') s = none) (hOpen' : token? (char '(') s' = none) :
    restAfter room .expression s = restAfter room .expression s' := by
  have hOperand : restAfter room .operand s = restAfter room .operand s' := by
    cases hRead : comparison? s with
    | some rest => rw [restAfter_comparison hRead, restAfter_comparison (hSame ▸ hRead)]
    | none =>
      rw [restAfter_operand hRead, restAfter_operand (hSame ▸ hRead), hOpen, hOpen']
  rw [restAfter_expression, restAfter_expression, hOperand]

-- ---------------------------------------------------------------------------
-- A variable compared with a quoted text
-- ---------------------------------------------------------------------------

/-- A variable starts with one of two marks. -/
theorem exists_of_matches_var {x : List Char} (h : Matches Token.var x) :
    ∃ c t, x = c :: t ∧ (c = '?' ∨ c = '$') := by
  obtain ⟨u, _, hStart, -, rfl⟩ := matches_seq_iff.mp h
  obtain ⟨_, t, hMark, -, rfl⟩ := matches_seq_iff.mp hStart
  obtain ⟨c, hc, rfl⟩ := matches_chars_iff.mp hMark
  refine ⟨c, _, rfl, ?_⟩
  rcases Bool.or_eq_true_iff.mp hc with hc | hc
  · exact .inl (beq_iff_eq.mp hc).symm
  · exact .inr (beq_iff_eq.mp hc).symm

/-- No gap is skipped before a variable. -/
theorem token?_var {x : List Char} (h : Matches Token.var x) (rest : List Char) :
    token? p (x ++ rest) = p.after? (x ++ rest) := by
  obtain ⟨c, t, rfl, rfl | rfl⟩ := exists_of_matches_var h <;> rfl

/-- A text is read as a token only if the token can start with its first character. -/
theorem token?_eq_none {c : Char} (hGap : isGap c = false) (hStart : p.following c = [])
    (hSome : p.acceptsEmpty = false) (s : List Char) : token? p (c :: s) = none := by
  have hHere : skipGaps (c :: s) = c :: s := by rw [skipGaps, List.dropWhile_cons, hGap]; rfl
  rw [token?, hHere, after?, matchLength?_cons_eq_none hStart hSome]
  rfl

/-- The datatype after a quoted text. -/
def datatypeTail : Pattern :=
  blanks ++ word ['^', '^'] ++ blanks ++ (Token.iri ||| Token.prefixedName)

/-- A typed text is a text and a datatype, in one way. -/
theorem matches_typedText_iff {u : List Char} :
    Matches Token.typedText u ↔
      ∃ t w, Matches Token.text t ∧ Matches datatypeTail w ∧ u = t ++ w := by
  constructor
  · -- taken apart from the name to the text, and put together the other way
    intro hAll
    obtain ⟨_, n, hGaps, hName, rfl⟩ := matches_seq_iff.mp hAll
    obtain ⟨_, after, hMarked, hAfter, rfl⟩ := matches_seq_iff.mp hGaps
    obtain ⟨_, mark, hStart, hMark, rfl⟩ := matches_seq_iff.mp hMarked
    obtain ⟨t, before, hText, hBefore, rfl⟩ := matches_seq_iff.mp hStart
    refine ⟨t, before ++ mark ++ after ++ n, hText, ?_, by simp only [List.append_assoc]⟩
    exact .seq (.seq (.seq hBefore hMark) hAfter) hName
  · rintro ⟨t, w, hText, hTail, rfl⟩
    obtain ⟨_, n, hGaps, hName, rfl⟩ := matches_seq_iff.mp hTail
    obtain ⟨_, after, hMarked, hAfter, rfl⟩ := matches_seq_iff.mp hGaps
    obtain ⟨before, mark, hBefore, hMark, rfl⟩ := matches_seq_iff.mp hMarked
    have hAll := Matches.seq (.seq (.seq (.seq hText hBefore) hMark) hAfter) hName
    simp only [List.append_assoc] at hAll ⊢
    exact hAll

/-- What stands after a quoted text is all that decides how a typed text goes on. -/
theorem after?_quoted {b tail : List Char} (h : QuotedBody b) :
    (Token.typedText ||| Token.number).after? ('"' :: (b ++ '"' :: tail)) =
      datatypeTail.after? tail := by
  have hStart : '"' :: (b ++ '"' :: tail) = ('"' :: (b ++ ['"'])) ++ tail := by simp
  rw [hStart]
  refine after?_append _ _ fun u v hSplit => ?_
  constructor
  · intro hu
    cases u with
    | nil => exact absurd (acceptsEmpty_iff.mpr hu) (by decide)
    | cons c u =>
      obtain rfl := (List.cons.inj hSplit).1
      rcases matches_alt_iff.mp hu with hTyped | hNumber
      · obtain ⟨t, w, hText, hw, hu⟩ := matches_typedText_iff.mp hTyped
        rw [hu, List.append_assoc] at hSplit
        -- the quoted text of this start is the one in front
        obtain ⟨rfl, -⟩ := text_inj (matches_text_iff.mpr ⟨b, h, rfl⟩) hText hSplit
        exact ⟨w, hu, hw⟩
      · exact absurd hNumber (not_matches_cons (by decide) u)
  · rintro ⟨w, rfl, hw⟩
    exact .left (matches_typedText_iff.mpr ⟨_, w, matches_text_iff.mpr ⟨b, h, rfl⟩, hw, rfl⟩)

/-- A variable compared with a text in double quotes leaves what is left of the datatype. -/
theorem comparison?_quoted {x b : List Char} (hVar : Matches Token.var x)
    (hBody : QuotedBody b) (tail : List Char) :
    comparison? (x ++ ' ' :: '=' :: ' ' :: '"' :: (b ++ '"' :: tail)) =
      datatypeTail.after? tail := by
  have hOperator : Matches Token.comparator ['='] := accepts_iff.mp (by decide)
  have hFirst := after?_of_stops (d := ' ') hVar (by decide)
    ('=' :: ' ' :: '"' :: (b ++ '"' :: tail))
  have hSecond := after?_of_stops (d := ' ') hOperator (by decide) ('"' :: (b ++ '"' :: tail))
  rw [comparison?, token?_var hVar, hFirst]
  change (Token.comparator.after? (['='] ++ ' ' :: '"' :: (b ++ '"' :: tail))).bind
    (token? (Token.typedText ||| Token.number)) = _
  rw [hSecond]
  exact after?_quoted hBody

end Comparison

section

open Comparison Pattern

variable {limit : Nat}

/-- A reader with a limit finds out what there is to find out, unless the text has more brackets
than it can go into. -/
theorem nestedWithin_cases (limit : Nat) (s : List Char) :
    nestedWithin limit s = .ok (isNestedComparison s) ∨
      nestedWithin limit s = .error .tooDeep ∧ limit + 1 < s.count '(' := by
  obtain hDepth | hSame := read_runsOutOr (Part.fuel .expression s) (limit + 1) .expression s
  · exact .inr ⟨by rw [nestedWithin, restAfter, hDepth], lt_count_of_read_depth hDepth⟩
  · rw [nestedWithin, isNestedComparison, restAfter, restAfter, hSame]
    split
    · rename_i hDepth
      exact .inr ⟨rfl, lt_count_of_read_depth hDepth⟩
    · exact .inl rfl

/-- What starts like neither a variable nor a bracket is no comparison, nor made of any, and no
limit is met in it. -/
theorem isComparison_cons {c : Char} (hGap : isGap c = false) (hVar : Token.var.following c = [])
    (hOpen : (char '(').following c = []) (s : List Char) :
    isComparison (c :: s) = false ∧ isNestedComparison (c :: s) = false ∧
      ∀ limit, nestedWithin limit (c :: s) = .ok false := by
  have hNone : comparison? (c :: s) = none := by
    rw [comparison?, token?_eq_none hGap hVar rfl]
    rfl
  have hBracket := token?_eq_none hGap hOpen rfl s
  have hRead (room : Room) : restAfter room .expression (c :: s) = .error .mismatch := by
    rw [restAfter_expression, restAfter_operand hNone, hBracket]
    rfl
  refine ⟨by rw [isComparison, hNone]; rfl, by rw [isNestedComparison, hRead]; rfl, fun limit => ?_⟩
  rw [nestedWithin, hRead]
  rfl

/-- Whether a variable is compared with a quoted text does not depend on the text, and neither does
whether a limit is met behind it. -/
theorem isComparison_quoted {x b b' : List Char} (hVar : Matches Token.var x) (hb : QuotedBody b)
    (hb' : QuotedBody b') (tail : List Char) :
    isComparison (x ++ ' ' :: '=' :: ' ' :: '"' :: (b ++ '"' :: tail)) =
        isComparison (x ++ ' ' :: '=' :: ' ' :: '"' :: (b' ++ '"' :: tail)) ∧
      ∀ limit, nestedWithin limit (x ++ ' ' :: '=' :: ' ' :: '"' :: (b ++ '"' :: tail)) =
        nestedWithin limit (x ++ ' ' :: '=' :: ' ' :: '"' :: (b' ++ '"' :: tail)) := by
  -- a variable does not begin with a bracket, so that only the comparison is tried on both texts
  have hBracket (rest : List Char) : token? (char '(') (x ++ rest) = none := by
    obtain ⟨c, t, rfl, rfl | rfl⟩ := exists_of_matches_var hVar <;>
      exact token?_eq_none (by decide) (by decide) rfl _
  have hSame :=
    (comparison?_quoted hVar hb tail).trans (comparison?_quoted hVar hb' tail).symm
  have hComparison : isComparison (x ++ ' ' :: '=' :: ' ' :: '"' :: (b ++ '"' :: tail)) =
      isComparison (x ++ ' ' :: '=' :: ' ' :: '"' :: (b' ++ '"' :: tail)) := by
    rw [isComparison, isComparison, hSame]
  refine ⟨hComparison, fun limit => ?_⟩
  rw [nestedWithin, nestedWithin, hComparison,
    restAfter_expression_congr hSame (hBracket _) (hBracket _)]

end

end SparqlSelect
