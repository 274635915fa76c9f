import SparqlSelect.Pattern.Matching

/-!
# The longest start of a text that matches

A reader takes the longest start of the text that its token matches. What is left is told from the
texts of the pattern alone, so a reader can be followed without running the test.

* `matchLength?_eq_some_iff`, `after?_eq_some_iff` — what is found and what is left, in terms of the
  texts of the pattern.
* `longest_of_stops`, `after?_of_stops` — a character that no text of the pattern holds ends the
  token.
* `after?_append` — a start that every text of the pattern has can be taken off first.
* `excludes` — whether no text of a pattern holds a character, and `append_cons_inj`, that a text
  ends where the first of such characters stands.
* `eq_of_matches_word` — a fixed word is its only text.
* `matchLength?_append`, `matchLength?_append_cons` — what comes after a text that no start goes
  past, or after such a character, does not matter.
-/

namespace SparqlSelect.Pattern

variable {p q : Pattern} {s t rest : List Char}

/-- A text of a pattern such that no longer start of what stands there is one. -/
structure Longest (p : Pattern) (t rest : List Char) : Prop where
  isText : Matches p t
  noLonger : ∀ u v, t ++ rest = u ++ v → Matches p u → u.length ≤ t.length

theorem acceptsAny_nil (s : List Char) : acceptsAny [] s = false := by
  rw [Bool.eq_false_iff, ne_eq, acceptsAny_iff]
  rintro ⟨p, hp, -⟩
  cases hp

theorem longestFrom_accepted {states : List Pattern} {n : Nat}
    (h : longestFrom states s = some n) :
    ∃ t rest, s = t ++ rest ∧ t.length = n ∧ acceptsAny states t = true := by
  -- induction on the text: a longer prefix is tried before the one that ends here
  induction s generalizing states n with
  | nil =>
    rw [longestFrom] at h
    split at h
    · rename_i hEmpty
      cases h
      exact ⟨[], [], rfl, rfl, hEmpty⟩
    · cases h
  | cons c s ih =>
    simp only [longestFrom] at h
    split at h
    · rename_i m hNext
      split at hNext
      · cases hNext
      · obtain ⟨t, rest, rfl, hLength, hAccepted⟩ := ih hNext
        cases h
        exact ⟨c :: t, rest, rfl, by rw [List.length_cons, hLength], hAccepted⟩
    · split at h
      · rename_i hEmpty
        cases h
        exact ⟨[], c :: s, rfl, rfl, hEmpty⟩
      · cases h

theorem longestFrom_longest {states : List Pattern} (hAccepted : acceptsAny states t = true)
    (rest : List Char) :
    ∃ n, longestFrom states (t ++ rest) = some n ∧ t.length ≤ n := by
  induction t generalizing states with
  | nil =>
    have hEmpty : states.any acceptsEmpty = true := hAccepted
    cases rest with
    | nil => exact ⟨0, by simp [longestFrom, hEmpty], Nat.le_refl 0⟩
    | cons c rest =>
      simp only [List.nil_append, longestFrom, hEmpty]
      split
      · exact ⟨_, rfl, Nat.zero_le _⟩
      · exact ⟨0, rfl, Nat.le_refl 0⟩
  | cons c t ih =>
    have hNext : acceptsAny (step states c) t = true := hAccepted
    obtain ⟨n, hn, hLength⟩ := ih hNext
    -- the test gives up when no pattern is left, which cannot be here
    have hSome : (step states c).isEmpty = false := by
      cases hStep : step states c with
      | nil =>
        rw [hStep, acceptsAny_nil] at hNext
        cases hNext
      | cons _ _ => rfl
    refine ⟨n + 1, ?_, Nat.succ_le_succ hLength⟩
    simp only [List.cons_append, longestFrom, hSome, hn, Bool.false_eq_true, if_false]

theorem matchLength?_eq_some_iff {n : Nat} :
    p.matchLength? s = some n ↔ ∃ t rest, s = t ++ rest ∧ t.length = n ∧ Longest p t rest := by
  constructor
  · -- the search answers an accepted prefix, and no accepted prefix is longer
    intro h
    obtain ⟨t, rest, rfl, rfl, hAccepted⟩ := longestFrom_accepted h
    refine ⟨t, rest, rfl, rfl, accepts_iff.mp hAccepted, ?_⟩
    intro u v hSplit hu
    obtain ⟨n, hn, hLength⟩ := longestFrom_longest (accepts_iff.mpr hu) v
    have hSame : p.matchLength? (t ++ rest) = some n := hSplit ▸ hn
    rw [h] at hSame
    cases hSame
    exact hLength
  · rintro ⟨t, rest, rfl, rfl, hText, hLonger⟩
    obtain ⟨n, hn, hLength⟩ := longestFrom_longest (accepts_iff.mpr hText) rest
    obtain ⟨u, v, hSplit, rfl, hu⟩ := longestFrom_accepted hn
    have hEqual := Nat.le_antisymm hLength (hLonger u v hSplit (accepts_iff.mp hu))
    rw [matchLength?, hn, hEqual]

theorem matchLength?_eq_none_iff :
    p.matchLength? s = none ↔ ∀ u v, s = u ++ v → ¬ Matches p u := by
  constructor
  · rintro h u v rfl hu
    obtain ⟨n, hn, -⟩ := longestFrom_longest (accepts_iff.mpr hu) v
    rw [matchLength?, hn] at h
    cases h
  · intro h
    cases hn : p.matchLength? s with
    | none => rfl
    | some n =>
      obtain ⟨t, rest, hSplit, -, hText, -⟩ := matchLength?_eq_some_iff.mp hn
      exact absurd hText (h t rest hSplit)

theorem after?_eq_some_iff :
    p.after? s = some rest ↔ ∃ t, s = t ++ rest ∧ Longest p t rest := by
  rw [after?, Option.map_eq_some_iff]
  constructor
  · rintro ⟨n, hn, hRest⟩
    obtain ⟨t, r, rfl, rfl, hLongest⟩ := matchLength?_eq_some_iff.mp hn
    rw [List.drop_left] at hRest
    exact ⟨t, by rw [hRest], hRest ▸ hLongest⟩
  · rintro ⟨t, rfl, hLongest⟩
    exact ⟨t.length, matchLength?_eq_some_iff.mpr ⟨t, rest, rfl, rfl, hLongest⟩, List.drop_left⟩

/-- A token that is not empty leaves less than there was. -/
theorem length_of_after? (hSome : p.acceptsEmpty = false) (h : p.after? s = some rest) :
    rest.length < s.length := by
  obtain ⟨t, rfl, hText, -⟩ := after?_eq_some_iff.mp h
  cases t with
  | nil =>
    rw [acceptsEmpty_iff.mpr hText] at hSome
    cases hSome
  | cons _ _ => rw [List.length_append, List.length_cons]; omega

/-- A start that all texts of a pattern have can be taken off first. -/
theorem after?_append (start tail : List Char)
    (h : ∀ u v, start ++ tail = u ++ v → (Matches p u ↔ ∃ w, u = start ++ w ∧ Matches q w)) :
    p.after? (start ++ tail) = q.after? tail := by
  ext rest
  simp only [after?_eq_some_iff]
  constructor
  · -- the longest text of the one is the start and the longest text of the other
    rintro ⟨t, hSplit, hText, hLonger⟩
    obtain ⟨w, rfl, hw⟩ := (h t rest hSplit).mp hText
    rw [List.append_assoc, List.append_cancel_left_eq] at hSplit
    refine ⟨w, hSplit, hw, fun u v hTail hu => ?_⟩
    have hWhole : start ++ w ++ rest = (start ++ u) ++ v := by
      rw [List.append_assoc, List.append_assoc, hTail]
    have hStart : Matches p (start ++ u) := by
      refine (h (start ++ u) v ?_).mpr ⟨u, rfl, hu⟩
      rw [hSplit, ← hWhole, List.append_assoc]
    have hLength := hLonger (start ++ u) v hWhole hStart
    simp only [List.length_append] at hLength
    omega
  · rintro ⟨w, rfl, hw, hLonger⟩
    have hWhole : start ++ (w ++ rest) = (start ++ w) ++ rest := (List.append_assoc ..).symm
    refine ⟨start ++ w, hWhole, (h _ rest hWhole).mpr ⟨w, rfl, hw⟩, fun u v hSplit hu => ?_⟩
    obtain ⟨w', rfl, hw'⟩ := (h u v (hWhole.trans hSplit)).mp hu
    rw [List.append_assoc, List.append_assoc, List.append_cancel_left_eq] at hSplit
    have hLength := hLonger w' v hSplit hw'
    simp only [List.length_append]
    omega

-- ---------------------------------------------------------------------------
-- Characters that no text of a pattern starts with or holds
-- ---------------------------------------------------------------------------

theorem following_char {c d : Char} (h : c ≠ d) : (char d).following c = [] := by
  simp [char, following, CharClass.contains, h.symm]

theorem following_append {c : Char} (h : p.following c = []) (hSome : p.acceptsEmpty = false) :
    (p ++ q).following c = [] := by
  change (p.following c).map (·.andThen q) ++ (if p.acceptsEmpty then q.following c else []) = []
  rw [h, hSome]
  rfl

/-- No text of a pattern starts with a character that nothing may follow. -/
theorem not_matches_cons {c : Char} (h : p.following c = []) (s : List Char) :
    ¬ Matches p (c :: s) := by
  rw [matches_cons_iff, h]
  rintro ⟨q, hq, -⟩
  cases hq

/-- No text of a pattern starts with characters behind which nothing may follow. -/
theorem not_matches_append {u : List Char} (h : u.foldl step [p] = []) (s : List Char) :
    ¬ Matches p (u ++ s) := by
  rw [← accepts_iff, accepts, acceptsAny, List.foldl_append, h]
  exact Bool.eq_false_iff.mp (acceptsAny_nil s)

/-- Where no text of a pattern can start, none is found. -/
theorem matchLength?_cons_eq_none {c : Char} (hStart : p.following c = [])
    (hSome : p.acceptsEmpty = false) (s : List Char) : p.matchLength? (c :: s) = none := by
  refine matchLength?_eq_none_iff.mpr fun u v hSplit hu => ?_
  cases u with
  | nil =>
    rw [acceptsEmpty_iff.mpr hu] at hSome
    cases hSome
  | cons d u =>
    obtain ⟨rfl, -⟩ := List.cons.inj hSplit
    exact not_matches_cons hStart u hu

/-- Whether no text of a pattern holds a character. -/
def excludes (d : Char) : Pattern → Bool
  | nothing => true
  | chars k => !k.contains d
  | seq p q => p.excludes d && q.excludes d
  | alt p q => p.excludes d && q.excludes d
  | many p => p.excludes d

theorem not_mem_of_excludes {d : Char} (hText : Matches p s) (h : p.excludes d = true) : d ∉ s := by
  -- induction on the match: what every part excludes, the whole does
  induction hText with
  | nothing => exact List.not_mem_nil
  | chars hc =>
    intro hd
    rw [List.mem_singleton] at hd
    subst hd
    rw [excludes, hc] at h
    cases h
  | seq _ _ ihp ihq =>
    obtain ⟨hp, hq⟩ := Bool.and_eq_true_iff.mp h
    exact fun hd => (List.mem_append.mp hd).elim (ihp hp) (ihq hq)
  | left _ ih => exact ih (Bool.and_eq_true_iff.mp h).1
  | right _ ih => exact ih (Bool.and_eq_true_iff.mp h).2
  | stop => exact List.not_mem_nil
  | more _ _ ihp ihm => exact fun hd => (List.mem_append.mp hd).elim (ihp h) (ihm h)

/-- No text of a pattern holds any of several characters that it excludes. -/
theorem not_mem_of_all_excludes {ds : List Char} (hText : Matches p s)
    (h : ds.all p.excludes = true) : ∀ c ∈ s, c ∉ ds :=
  fun c hc hMem => not_mem_of_excludes hText (List.all_eq_true.mp h c hMem) hc

/-- Characters of a class, any number of them. -/
theorem matches_many_chars {k : CharClass} (h : ∀ c ∈ s, k.contains c = true) :
    Matches (many (chars k)) s := by
  induction s with
  | nil => exact .stop
  | cons c s ih =>
    obtain ⟨hc, hs⟩ := List.forall_mem_cons.mp h
    exact .more (.chars hc) (ih hs)

/-- A text between two characters. -/
theorem matches_between_iff {first last : Char} {body : Pattern} {s : List Char} :
    Matches (char first ++ body ++ char last) s ↔
      ∃ b, Matches body b ∧ s = first :: (b ++ [last]) := by
  constructor
  · intro h
    obtain ⟨_, _, hOpen, hClose, rfl⟩ := matches_seq_iff.mp h
    obtain ⟨_, b, hStart, hBody, rfl⟩ := matches_seq_iff.mp hOpen
    obtain ⟨c, hc, rfl⟩ := matches_chars_iff.mp hStart
    obtain ⟨d, hd, rfl⟩ := matches_chars_iff.mp hClose
    obtain rfl := beq_iff_eq.mp hc
    obtain rfl := beq_iff_eq.mp hd
    exact ⟨b, hBody, rfl⟩
  · rintro ⟨b, hBody, rfl⟩
    have hOpen : Matches (char first) [first] := .chars (beq_self_eq_true _)
    have hClose : Matches (char last) [last] := .chars (beq_self_eq_true _)
    exact .seq (.seq hOpen hBody) hClose

/-- A fixed word is its only text. -/
theorem eq_of_matches_word {w s : List Char} (h : Matches (word w) s) : s = w := by
  induction w using word.induct generalizing s with
  | case1 => exact matches_nothing_iff.mp h
  | case2 c =>
    obtain ⟨d, hd, rfl⟩ := matches_chars_iff.mp h
    rw [beq_iff_eq.mp hd]
  | case3 c rest hSome ih =>
    rw [word.eq_3 c rest hSome] at h
    obtain ⟨t, u, hc, hRest, rfl⟩ := matches_seq_iff.mp h
    obtain ⟨d, hd, rfl⟩ := matches_chars_iff.mp hc
    rw [beq_iff_eq.mp hd, ih hRest]
    rfl

/-- What stands before the first of some character, and what stands after it. -/
theorem append_cons_inj {α : Type} {d : α} {s s' t t' : List α} (hs : d ∉ s) (hs' : d ∉ s')
    (h : s ++ d :: t = s' ++ d :: t') : s = s' ∧ t = t' := by
  induction s generalizing s' with
  | nil =>
    cases s' with
    | nil => exact ⟨rfl, (List.cons.inj h).2⟩
    | cons e s' => exact absurd (by simp [(List.cons.inj h).1]) hs'
  | cons c s ih =>
    cases s' with
    | nil => exact absurd (by simp [(List.cons.inj h).1]) hs
    | cons e s' =>
      obtain ⟨rfl, hTail⟩ := List.cons.inj h
      obtain ⟨rfl, hRest⟩ :=
        ih (List.not_mem_of_not_mem_cons hs) (List.not_mem_of_not_mem_cons hs') hTail
      exact ⟨rfl, hRest⟩

/-- What stands before the last of some character, and what stands after it. -/
theorem concat_append_inj {α : Type} {d : α} {s s' t t' : List α} (ht : d ∉ t) (ht' : d ∉ t')
    (h : s ++ d :: t = s' ++ d :: t') : s = s' ∧ t = t' := by
  have hReversed : t.reverse ++ d :: s.reverse = t'.reverse ++ d :: s'.reverse := by
    simpa using congrArg List.reverse h
  obtain ⟨hLast, hFirst⟩ := append_cons_inj (by simpa using ht) (by simpa using ht') hReversed
  exact ⟨List.reverse_inj.mp hFirst, List.reverse_inj.mp hLast⟩

/-- What a character does not stand in comes to an end before it. -/
theorem behind_of_not_mem {α : Type} {d : α} {front s t u : List α} (h : d ∉ front)
    (hSplit : front ++ s = t ++ d :: u) : ∃ v, t = front ++ v ∧ s = v ++ d :: u := by
  rcases List.append_eq_append_iff.mp hSplit with ⟨v, rfl, rfl⟩ | ⟨v, rfl, hv⟩
  · exact ⟨v, rfl, rfl⟩
  · cases v with
    | nil => exact ⟨[], by simp, hv.symm⟩
    | cons c v =>
      obtain ⟨rfl, -⟩ := List.cons.inj hv
      exact absurd (by simp) h

/-- What a character does not stand in starts behind it. -/
theorem before_of_not_mem {α : Type} {d : α} {back s t u : List α} (h : d ∉ back)
    (hSplit : s ++ back = t ++ d :: u) : ∃ v, s = t ++ d :: v ∧ u = v ++ back := by
  have hReversed : back.reverse ++ s.reverse = u.reverse ++ d :: t.reverse := by
    simpa using congrArg List.reverse hSplit
  obtain ⟨v, hu, hs⟩ := behind_of_not_mem (by simpa using h) hReversed
  refine ⟨v.reverse, ?_, ?_⟩
  · simpa using congrArg List.reverse hs
  · simpa using congrArg List.reverse hu

/-- A text is the longest one where it ends, or before a character that no text of its pattern
holds. -/
theorem longest_of_stops (hText : Matches p t) (h : ∀ d ∈ rest.head?, p.excludes d = true) :
    Longest p t rest := by
  refine ⟨hText, fun u v hSplit hu => ?_⟩
  -- a longer start would hold the character itself
  rcases List.append_eq_append_iff.mp hSplit with ⟨w, rfl, rfl⟩ | ⟨w, rfl, -⟩
  · cases w with
    | nil => simp
    | cons c w => exact absurd (by simp) (not_mem_of_excludes hu (h c rfl))
  · simp

/-- A token ends before a character that no text of its pattern holds. -/
theorem after?_of_stops {d : Char} (hText : Matches p t) (h : p.excludes d = true)
    (rest : List Char) :
    p.after? (t ++ d :: rest) = some (d :: rest) := by
  have hHead : ∀ c ∈ (d :: rest).head?, p.excludes c = true := by
    rintro c ⟨⟩
    exact h
  exact after?_eq_some_iff.mpr ⟨t, rfl, longest_of_stops hText hHead⟩

/-- Where only one of two patterns can start, its longest text is the longest of both. -/
theorem Longest.left {c : Char} (h : Longest p (c :: t) rest) (hStart : q.following c = []) :
    Longest (p ||| q) (c :: t) rest := by
  refine ⟨.left h.isText, fun u v hSplit hu => ?_⟩
  cases u with
  | nil => exact Nat.zero_le _
  | cons d u =>
    obtain rfl := (List.cons.inj hSplit).1
    rcases matches_alt_iff.mp hu with hu | hu
    · exact h.noLonger _ v hSplit hu
    · exact absurd hu (not_matches_cons hStart u)

theorem Longest.right {c : Char} (h : Longest q (c :: t) rest) (hStart : p.following c = []) :
    Longest (p ||| q) (c :: t) rest := by
  obtain ⟨hText, hLonger⟩ := h.left hStart
  refine ⟨.right h.isText, fun u v hSplit hu => hLonger u v hSplit ?_⟩
  exact matches_alt_iff.mpr (matches_alt_iff.mp hu).symm

/-- What a token finds does not depend on what comes after a text that no start goes past. -/
theorem matchLength?_append (h : ∀ u v, s ++ rest = u ++ v → Matches p u → ∃ w, s = u ++ w) :
    p.matchLength? (s ++ rest) = p.matchLength? s := by
  ext n
  simp only [matchLength?_eq_some_iff]
  constructor
  · rintro ⟨t, v, hSplit, hLength, hText, hLonger⟩
    obtain ⟨w, rfl⟩ := h t v hSplit hText
    refine ⟨t, w, rfl, hLength, hText, fun u v hOther hu => hLonger u (v ++ rest) ?_ hu⟩
    rw [List.append_assoc, List.append_cancel_left_eq] at hSplit
    rw [← hSplit, ← List.append_assoc, hOther, List.append_assoc]
  · rintro ⟨t, w, rfl, hLength, hText, hLonger⟩
    refine ⟨t, w ++ rest, by simp, hLength, hText, fun u v hOther hu => ?_⟩
    obtain ⟨w', hSplit⟩ := h u v ((List.append_assoc ..).trans hOther) hu
    exact hLonger u w' hSplit hu

/-- What a token finds does not depend on what comes after a character that no text of its pattern
holds. -/
theorem matchLength?_append_cons {d : Char} (h : p.excludes d = true) (s rest : List Char) :
    p.matchLength? (s ++ d :: rest) = p.matchLength? s := by
  refine matchLength?_append fun u v hSplit hu => ?_
  obtain ⟨w, hs, -⟩ := behind_of_not_mem (not_mem_of_excludes hu h) hSplit.symm
  exact ⟨w, hs⟩

end SparqlSelect.Pattern
