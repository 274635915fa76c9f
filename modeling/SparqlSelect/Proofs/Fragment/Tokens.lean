import SparqlSelect.Proofs.Fragment.Circle

/-!
# Where the tokens of a comparison end

The tokens of a comparison may stand next to each other without gaps, so where each of them ends has
to follow from what stands behind it. A variable ends before an operator, an operator before a
value. A value ends before a gap, a closing bracket or the first character of a connective: no
number holds any of these, and of a quoted text only the name of its datatype could go on.

* `blanks_inj`, `datatypeMark_inj` — the parts behind a quoted text have one end each.
* `longest_var`, `longest_comparator`, `longest_connective`, `longest_value` — a token is the
  longest one that stands there.
* `token?_eq_some`, `token?_gaps_cons` — what is read of a token behind gaps.
-/

namespace SparqlSelect

namespace Comparison

open Pattern

variable {p : Pattern} {c : Char} {g g' n n' s t t' u v rest rest' : List Char}

-- ---------------------------------------------------------------------------
-- Gaps
-- ---------------------------------------------------------------------------

/-- White space that separates tokens, or nothing. -/
def Gaps (g : List Char) : Prop := ∀ c ∈ g, isGap c = true

/-- The characters that separate tokens. -/
def gapChars : List Char := [' ', '\t', '\n', '\r']

theorem isGap_iff : isGap c = true ↔ c ∈ gapChars := by
  simp [isGap, gapChars, or_assoc]

theorem gaps_nil : Gaps [] := by
  intro c hc
  cases hc

theorem Gaps.append (h : Gaps g) (h' : Gaps g') : Gaps (g ++ g') :=
  List.forall_mem_append.mpr ⟨h, h'⟩

/-- A gap in front is skipped. -/
theorem skipGaps_append (h : Gaps g) (s : List Char) : skipGaps (g ++ s) = skipGaps s :=
  List.dropWhile_append_of_pos h

theorem skipGaps_cons (h : isGap c = false) (s : List Char) : skipGaps (c :: s) = c :: s := by
  rw [skipGaps, List.dropWhile_cons, h]
  rfl

/-- Gaps and what is no gap: there is one place where they meet. -/
theorem not_gaps_of_mem (hc : isGap c = false) (hMem : c ∈ s) : s.all isGap = false := by
  rw [Bool.eq_false_iff, ne_eq, List.all_eq_true]
  intro hAll
  rw [hAll c hMem] at hc
  cases hc

-- ---------------------------------------------------------------------------
-- Reading one token
-- ---------------------------------------------------------------------------

/-- Whether no text of a pattern starts with one of some characters. -/
def avoidsStart (p : Pattern) (cs : List Char) : Bool := cs.all fun d => (p.following d).isEmpty

/-- A pattern that avoids some characters at its start accepts no text that starts with one. -/
theorem not_mem_of_avoidsStart {cs : List Char} (hText : Matches p (c :: t))
    (h : avoidsStart p cs = true) : c ∉ cs :=
  fun hMem => not_matches_cons (List.isEmpty_iff.mp (List.all_eq_true.mp h c hMem)) t hText

theorem cons_of_matches (hText : Matches p t) (hSome : p.acceptsEmpty = false) :
    ∃ c u, t = c :: u := by
  cases t with
  | nil =>
    rw [acceptsEmpty_iff.mpr hText] at hSome
    cases hSome
  | cons c u => exact ⟨c, u, rfl⟩

/-- Gaps end where a token that starts with none of them stands. -/
theorem skipGaps_token (hGaps : Gaps g) (hText : Matches p t) (hSome : p.acceptsEmpty = false)
    (hStart : avoidsStart p gapChars = true) (rest : List Char) :
    skipGaps (g ++ (t ++ rest)) = t ++ rest := by
  obtain ⟨c, u, rfl⟩ := cons_of_matches hText hSome
  have hGap : isGap c = false := by
    rw [Bool.eq_false_iff, ne_eq, isGap_iff]
    exact not_mem_of_avoidsStart hText hStart
  rw [skipGaps_append hGaps, List.cons_append, skipGaps_cons hGap]

/-- A token behind gaps is read if it is the longest there. -/
theorem token?_eq_some (hGaps : Gaps g) (h : Longest p t rest) (hSome : p.acceptsEmpty = false)
    (hStart : avoidsStart p gapChars = true) : token? p (g ++ (t ++ rest)) = some rest := by
  rw [token?, skipGaps_token hGaps h.isText hSome hStart]
  exact after?_eq_some_iff.mpr ⟨t, rfl, h⟩

/-- What stands behind gaps is read as a token only if the token can start with it. -/
theorem token?_gaps_cons (hGaps : Gaps g) (hGap : isGap c = false) (hStart : p.following c = [])
    (hSome : p.acceptsEmpty = false) (s : List Char) : token? p (g ++ c :: s) = none := by
  have hNone := token?_eq_none hGap hStart hSome s
  rwa [token?, skipGaps_append hGaps]

/-- Nothing is read where only gaps are left. -/
theorem token?_gaps (hGaps : Gaps g) (hSome : p.acceptsEmpty = false) : token? p g = none := by
  have hNothing : skipGaps g = [] := by
    have hAll := skipGaps_append hGaps []
    rwa [List.append_nil] at hAll
  rw [token?, hNothing, after?, Option.map_eq_none_iff, matchLength?_eq_none_iff]
  intro u v hSplit hu
  obtain ⟨rfl, -⟩ := List.append_eq_nil_iff.mp hSplit.symm
  rw [acceptsEmpty_iff.mpr hu] at hSome
  cases hSome

-- ---------------------------------------------------------------------------
-- The parts of a typed text
-- ---------------------------------------------------------------------------

/-- White space ends before the first character that is none. -/
theorem blanks_inj (h : Matches blanks g) (h' : Matches blanks g')
    (hn : ∀ c ∈ n.head?, isBlank c = false) (hn' : ∀ c ∈ n'.head?, isBlank c = false)
    (hSplit : g ++ n = g' ++ n') : g = g' ∧ n = n' := by
  have hTake {g n : List Char} (h : Matches blanks g) (hn : ∀ c ∈ n.head?, isBlank c = false) :
      (g ++ n).takeWhile isBlank = g := by
    rw [List.takeWhile_append_of_pos (isBlank_of_matches_blanks h)]
    cases n with
    | nil => simp
    | cons c n => rw [List.takeWhile_cons, hn c rfl]; simp
  have hSame : g = g' := by rw [← hTake h hn, hSplit, hTake h' hn']
  subst hSame
  exact ⟨rfl, List.append_cancel_left hSplit⟩

/-- What stands between a quoted text and the name of its datatype. -/
def datatypeMark : Pattern := blanks ++ word ['^', '^'] ++ blanks

/-- The datatype's mark, with the blanks around it, ends where its name starts. -/
theorem datatypeMark_inj (h : Matches datatypeMark g) (h' : Matches datatypeMark g')
    (hn : ∀ c ∈ n.head?, isBlank c = false) (hn' : ∀ c ∈ n'.head?, isBlank c = false)
    (hSplit : g ++ n = g' ++ n') : g = g' ∧ n = n' := by
  obtain ⟨_, after, hMarked, hAfter, rfl⟩ := matches_seq_iff.mp h
  obtain ⟨before, mark, hBefore, hMark, rfl⟩ := matches_seq_iff.mp hMarked
  obtain rfl := eq_of_matches_word hMark
  obtain ⟨_, after', hMarked', hAfter', rfl⟩ := matches_seq_iff.mp h'
  obtain ⟨before', mark', hBefore', hMark', rfl⟩ := matches_seq_iff.mp hMarked'
  obtain rfl := eq_of_matches_word hMark'
  -- the white space in front ends before the first caret
  have hCarets :
      before ++ '^' :: ('^' :: (after ++ n)) = before' ++ '^' :: ('^' :: (after' ++ n')) := by
    simpa using hSplit
  obtain ⟨rfl, hTail⟩ := append_cons_inj (not_mem_of_excludes hBefore (by decide))
    (not_mem_of_excludes hBefore' (by decide)) hCarets
  obtain ⟨rfl, hNames⟩ := blanks_inj hAfter hAfter' hn hn' (List.cons.inj hTail).2
  exact ⟨rfl, hNames⟩

/-- The name of a datatype. -/
def datatypeName : Pattern := Token.iri ||| Token.prefixedName

theorem head_datatypeName (h : Matches datatypeName n) (rest : List Char) :
    ∀ c ∈ (n ++ rest).head?, isBlank c = false := by
  obtain ⟨d, n, rfl⟩ := cons_of_matches h rfl
  rintro c ⟨⟩
  exact isBlank_of_matches h (by decide) d List.mem_cons_self

/-- A typed text in three parts: the text, the mark and the name. -/
theorem matches_typedText_split (h : Matches Token.typedText v) :
    ∃ t g n, v = t ++ (g ++ n) ∧ Matches Token.text t ∧ Matches datatypeMark g ∧
      Matches datatypeName n := by
  obtain ⟨t, w, hText, hTail, rfl⟩ := matches_typedText_iff.mp h
  obtain ⟨g, n, hMark, hName, rfl⟩ := matches_seq_iff.mp hTail
  exact ⟨t, g, n, rfl, hText, hMark, hName⟩

-- ---------------------------------------------------------------------------
-- The longest tokens
-- ---------------------------------------------------------------------------

/-- The characters in front of which a value ends: gaps, a closing bracket, and what starts a
connective. -/
def stopChars : List Char := [' ', '\t', '\n', '\r', ')', '&', '|']

/-- A value can end in front of the text. -/
def Stops (rest : List Char) : Prop := ∀ c ∈ rest.head?, c ∈ stopChars

/-- A token none of whose characters stop it runs up to what stops it. -/
theorem longest_of_stopChars (hText : Matches p t) (hStops : Stops rest)
    (h : (stopChars.all fun d => p.excludes d) = true) : Longest p t rest :=
  longest_of_stops hText fun c hc => List.all_eq_true.mp h c (hStops c hc)

theorem following_typedText (h : isQuote c = false) : Token.typedText.following c = [] := by
  simp only [isQuote, Bool.or_eq_false_iff, beq_eq_false_iff_ne] at h
  have hBefore := following_append (q := blanks) (following_text h.1 h.2) rfl
  have hMark := following_append (q := word ['^', '^']) hBefore rfl
  have hAfter := following_append (q := blanks) hMark rfl
  exact following_append hAfter rfl

/-- A datatype's name runs up to what stops it. -/
theorem longest_datatypeName (h : Matches datatypeName n) (hStops : Stops rest) :
    Longest datatypeName n rest := by
  rcases matches_alt_iff.mp h with hIri | hPrefixed
  · have hLongest := longest_iri hIri rest
    obtain ⟨c, u, rfl⟩ := cons_of_matches hIri rfl
    obtain ⟨b, -, hSame⟩ := matches_iri_iff.mp hIri
    obtain rfl := (List.cons.inj hSame).1
    exact hLongest.left (by decide)
  · have hLongest := longest_of_stopChars hPrefixed hStops (by decide)
    obtain ⟨c, n, rfl⟩ := cons_of_matches hPrefixed rfl
    have hOther : c ∉ ['<'] := not_mem_of_avoidsStart hPrefixed (by decide)
    exact hLongest.right (following_iri (List.ne_of_not_mem_cons hOther))

/-- A typed text runs up to what stops its datatype. -/
theorem longest_typedText (h : Matches Token.typedText v) (hStops : Stops rest) :
    Longest Token.typedText v rest := by
  refine ⟨h, fun u w hSplit hu => ?_⟩
  obtain ⟨t, g, n, rfl, hText, hMark, hName⟩ := matches_typedText_split h
  obtain ⟨t', g', n', rfl, hText', hMark', hName'⟩ := matches_typedText_split hu
  simp only [List.append_assoc] at hSplit
  -- the text and what marks the datatype are the same, so all is up to the name
  obtain ⟨rfl, hMarks⟩ := text_inj hText hText' hSplit
  obtain ⟨rfl, hNames⟩ := datatypeMark_inj hMark hMark' (head_datatypeName hName rest)
    (head_datatypeName hName' w) hMarks
  have hLength := (longest_datatypeName hName hStops).noLonger n' w hNames hName'
  simp only [List.length_append]
  omega

/-- What a variable is compared with. -/
def comparedValue : Pattern := Token.typedText ||| Token.number

/-- A compared value runs up to what stops it. -/
theorem longest_value (h : Matches comparedValue v) (hStops : Stops rest) :
    Longest comparedValue v rest := by
  obtain ⟨c, w, rfl⟩ := cons_of_matches h rfl
  -- a typed text starts with a quote and a number does not, so the first character decides
  rcases matches_alt_iff.mp h with hTyped | hNumber
  · have hLongest := longest_typedText hTyped hStops
    obtain ⟨t, g, n, hSplit, hText, -, -⟩ := matches_typedText_split hTyped
    obtain ⟨q, b, hQuote, -, rfl⟩ := matches_text_iff_quotes.mp hText
    obtain rfl := (List.cons.inj hSplit).1
    refine hLongest.left ?_
    rcases Bool.or_eq_true_iff.mp hQuote with hq | hq
    · rw [beq_iff_eq.mp hq]
      decide
    · rw [beq_iff_eq.mp hq]
      decide
  · have hLongest := longest_of_stopChars hNumber hStops (by decide)
    have hOther : c ∉ ['"', '\''] := not_mem_of_avoidsStart hNumber (by decide)
    have hQuote : isQuote c = false := by simpa [isQuote] using hOther
    exact hLongest.right (following_typedText hQuote)

/-- The characters that operators are made of. -/
def operatorChars : List Char := ['<', '>', '=', '!']

/-- A variable in a comparison runs up to a gap or an operator. -/
theorem longest_var (h : Matches Token.var t)
    (hNext : ∀ c ∈ rest.head?, c ∈ gapChars ++ operatorChars) : Longest Token.var t rest := by
  have hExcludes : ((gapChars ++ operatorChars).all fun d => Token.var.excludes d) = true := by
    decide
  exact longest_of_stops h fun c hc => List.all_eq_true.mp hExcludes c (hNext c hc)

/-- A comparator runs up to a character no operator has. -/
theorem longest_comparator (h : Matches Token.comparator t)
    (hNext : ∀ c ∈ rest.head?, c ∉ operatorChars) : Longest Token.comparator t rest := by
  refine longest_of_stops h fun c hc => ?_
  have hOther := hNext c hc
  simp only [operatorChars, List.mem_cons, List.not_mem_nil, or_false, not_or] at hOther
  obtain ⟨hLess, hGreater, hEqual, hNot⟩ := hOther
  simp [Token.comparator, word, char, excludes, CharClass.contains, Ne.symm hLess,
    Ne.symm hGreater, Ne.symm hEqual, Ne.symm hNot, HOr.hOr, HAppend.hAppend, Append.append]

/-- Connectives are all of one length. -/
theorem length_of_matches_connective (h : Matches Token.connective t) : t.length = 2 := by
  rcases matches_alt_iff.mp h with h | h
  · rw [eq_of_matches_word h]
    rfl
  · rw [eq_of_matches_word h]
    rfl

theorem longest_connective (h : Matches Token.connective t) (rest : List Char) :
    Longest Token.connective t rest := by
  refine ⟨h, fun u _ _ hu => ?_⟩
  have hSame := (length_of_matches_connective hu).trans (length_of_matches_connective h).symm
  exact Nat.le_of_eq hSame

theorem longest_char (c : Char) (rest : List Char) : Longest (char c) [c] rest := by
  refine ⟨.chars (beq_self_eq_true c), fun u _ _ hu => ?_⟩
  obtain ⟨d, -, rfl⟩ := matches_chars_iff.mp hu
  exact Nat.le_refl _

end Comparison

end SparqlSelect
