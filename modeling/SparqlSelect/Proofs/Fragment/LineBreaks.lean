import SparqlSelect.Proofs.Fragment.Grammar
import SparqlSelect.Proofs.Fragment.Kinds
import SparqlSelect.Proofs.Fragment.Shapes
import SparqlSelect.Proofs.Pattern.Blanks

/-!
# Line breaks between quotes

A line break cannot stand in a quoted text unless a backslash stands before it. So it cannot stand
between two quotes of an expression whose quotes open and close quoted texts: a term, a comparison
or an expression made of comparisons. Three kinds of fragments are not of this form. The arguments
of a call may be anything but a line feed, so a carriage return in quotes passes. The points of a
polygon stand in quotes, and white space between them may be a line break. Quotes in the unit of a
circle mean nothing, but a unit holds no white space.

* `backslash_before_break` — what stands before a line break in a quoted text.
* `QuotesPaired` — texts in which every double quote is part of a quoted text.
* `Pattern.confines` — patterns with a character in one part of their texts only.
* `acceptsAny_broken_iff` — which expressions with a line break between quotes are accepted.
-/

namespace SparqlSelect

open Pattern

/-- Whether a character breaks a line in two. -/
def isLineBreak (c : Char) : Bool := c == '\n' || c == '\r'

-- ---------------------------------------------------------------------------
-- Quoted texts
-- ---------------------------------------------------------------------------

section

variable {quote c : Char} {a b s t u w x y post pre rest : List Char}

theorem cases_of_isLineBreak (h : isLineBreak c = true) : c = '\n' ∨ c = '\r' :=
  (Bool.or_eq_true_iff.mp h).imp beq_iff_eq.mp beq_iff_eq.mp

/-- In the body of a quoted text a backslash stands directly before each line break. -/
theorem backslash_in_body (hBody : Matches (many (partOf quote)) b) (hBreak : isLineBreak c = true)
    (hSplit : b = x ++ c :: y) : x.getLast? = some '\\' := by
  refine matches_many_induction (P := fun b => ∀ x, b = x ++ c :: y → x.getLast? = some '\\')
    ?_ ?_ hBody x hSplit
  · intro x hSplit
    simp at hSplit
  · intro t u hPart _ ih x hSplit
    rcases matches_alt_iff.mp hPart with hPlain | hEscaped
    · obtain ⟨d, hd, rfl⟩ := matches_chars_iff.mp hPlain
      cases x with
      | nil =>
        -- a plain character is no line break
        obtain ⟨rfl, -⟩ := List.cons.inj hSplit
        rcases cases_of_isLineBreak hBreak with rfl | rfl <;>
          simp [CharClass.contains] at hd
      | cons e x =>
        obtain ⟨rfl, hTail⟩ := List.cons.inj hSplit
        rw [List.getLast?_cons, ih x hTail]
        rfl
    · obtain ⟨_, _, hSlash, hChar, rfl⟩ := matches_seq_iff.mp hEscaped
      obtain rfl := eq_of_matches_word (w := ['\\']) hSlash
      obtain ⟨d, -, rfl⟩ := matches_chars_iff.mp hChar
      cases x with
      | nil =>
        obtain ⟨rfl, -⟩ := List.cons.inj hSplit
        cases hBreak
      | cons e x =>
        obtain ⟨rfl, hTail⟩ := List.cons.inj hSplit
        cases x with
        | nil => rfl
        | cons e' x =>
          obtain ⟨-, hTail⟩ := List.cons.inj hTail
          rw [List.getLast?_cons, List.getLast?_cons, ih x hTail]
          rfl

/-- A quoted text has a backslash directly before each line break. -/
theorem backslash_before_break (hText : Matches Token.text t) (hBreak : isLineBreak c = true)
    (hSplit : t = x ++ c :: y) : x.getLast? = some '\\' := by
  obtain ⟨q, b, hQuote, hBody, rfl⟩ := matches_text_iff_quotes.mp hText
  have hOther : q ≠ c := by
    rintro rfl
    rcases cases_of_isLineBreak hBreak with rfl | rfl <;> cases hQuote
  -- neither of the two quotes is a line break
  cases x with
  | nil => exact absurd (List.cons.inj hSplit).1 hOther
  | cons e x =>
    have hClose : c ∉ [q] := by simpa using hOther.symm
    obtain ⟨z, rfl, -⟩ := before_of_not_mem hClose (List.cons.inj hSplit).2
    rw [List.getLast?_cons, backslash_in_body hBody hBreak rfl]
    rfl

/-- No quoted text goes past a line break behind one of its double quotes, with neither a quote nor
a backslash between the two, unless another double quote stands before. -/
theorem not_text_over_break (hFirst : '"' ∉ u) (hPlain : ∀ d ∈ s, isQuote d = false ∧ d ≠ '\\')
    (hBreak : ∃ c ∈ s, isLineBreak c = true) (hSplit : s ++ '"' :: post = w ++ rest) :
    ¬ Matches Token.text (u ++ '"' :: w) := by
  intro hText
  obtain ⟨q, b, hQuote, -, hWhole⟩ := matches_text_iff_quotes.mp hText
  rw [← List.cons_append] at hWhole
  rcases List.eq_nil_or_concat w with rfl | ⟨w, e, rfl⟩
  · -- the quote would close the text, so another of its kind would open it
    obtain ⟨rfl, hLast⟩ := List.append_inj' hWhole rfl
    exact hFirst (List.mem_cons.mpr (.inl (List.cons.inj hLast).1))
  · have hEnds : (u ++ '"' :: w) ++ [e] = (q :: b) ++ [q] := by simpa using hWhole
    obtain ⟨-, hLast⟩ := List.append_inj' hEnds rfl
    obtain rfl := (List.cons.inj hLast).1
    -- the quote at the end of the text comes after the line break
    have hNone : e ∉ s := fun he => by simp [(hPlain e he).1] at hQuote
    obtain ⟨v, rfl, -⟩ := behind_of_not_mem (u := rest) hNone (by simpa using hSplit)
    obtain ⟨c, hMem, hBreak⟩ := hBreak
    obtain ⟨s₁, s₂, rfl⟩ := List.append_of_mem hMem
    have hSlash : (u ++ '"' :: s₁).getLast? = some '\\' :=
      backslash_before_break (y := s₂ ++ v ++ [e]) hText hBreak (by simp)
    have hBehind : '\\' ∈ '"' :: s₁ := by
      refine List.mem_of_getLast? ?_
      simpa [List.getLast?_append] using hSlash
    rcases List.mem_cons.mp hBehind with hSame | hMem
    · cases hSame
    · exact (hPlain '\\' (by simp [hMem])).2 rfl

-- ---------------------------------------------------------------------------
-- Texts whose quotes are paired
-- ---------------------------------------------------------------------------

/-- Every double quote in a text is part of a quoted text. -/
def QuotesPaired (s : List Char) : Prop :=
  ∀ t u, s = t ++ '"' :: u → ∃ a b v w, t = a ++ b ∧ u = v ++ w ∧ Matches Token.text (b ++ '"' :: v)

/-- A text without a double quote pairs all of them. -/
theorem quotesPaired_of_not_mem (h : '"' ∉ s) : QuotesPaired s := by
  rintro t u rfl
  exact absurd (by simp) h

/-- A quoted text pairs its own quotes. -/
theorem quotesPaired_of_text (h : Matches Token.text s) : QuotesPaired s := by
  rintro t u rfl
  exact ⟨[], t, u, [], rfl, (List.append_nil u).symm, h⟩

/-- Paired texts are paired one after another. -/
theorem QuotesPaired.append (hs : QuotesPaired s) (ht : QuotesPaired t) :
    QuotesPaired (s ++ t) := by
  intro x y hSplit
  -- the quote stands in the second text, at its start, or in the first
  rcases List.append_eq_append_iff.mp hSplit with ⟨z, rfl, hz⟩ | ⟨z, rfl, hz⟩
  · obtain ⟨a, b, v, w, rfl, rfl, hText⟩ := ht z y hz
    exact ⟨s ++ a, b, v, w, by simp, rfl, hText⟩
  · cases z with
    | nil =>
      obtain ⟨a, b, v, w, hNil, rfl, hText⟩ := ht [] y hz.symm
      obtain ⟨rfl, rfl⟩ := List.append_eq_nil_iff.mp hNil.symm
      exact ⟨x, [], v, w, (List.append_nil x).symm, rfl, hText⟩
    | cons d z =>
      obtain ⟨rfl, rfl⟩ := List.cons.inj hz
      obtain ⟨a, b, v, w, rfl, rfl, hText⟩ := hs x z rfl
      exact ⟨a, b, v, w ++ t, rfl, by simp, hText⟩

/-- Whether double quotes stand in the quoted texts of a pattern only. -/
def Pattern.pairsQuotes : Pattern → Bool
  | nothing => true
  | chars k => !k.contains '"'
  | seq p q => p.pairsQuotes && q.pairsQuotes
  | alt p q => alt p q == Token.text || p.pairsQuotes && q.pairsQuotes
  | many p => p.pairsQuotes

/-- A pattern that pairs quotes by its shape accepts paired texts only. -/
theorem quotesPaired_of_matches {p : Pattern} (hText : Matches p s) (h : p.pairsQuotes = true) :
    QuotesPaired s := by
  -- induction on the pattern: quoted texts pair their own quotes, and nothing else has one
  induction p generalizing s with
  | nothing => exact quotesPaired_of_not_mem (not_mem_of_excludes hText rfl)
  | chars k => exact quotesPaired_of_not_mem (not_mem_of_excludes hText h)
  | seq p q ihp ihq =>
    obtain ⟨hp, hq⟩ := Bool.and_eq_true_iff.mp h
    obtain ⟨t, u, ht, hu, rfl⟩ := matches_seq_iff.mp hText
    exact (ihp ht hp).append (ihq hu hq)
  | alt p q ihp ihq =>
    rcases Bool.or_eq_true_iff.mp h with hQuoted | hBoth
    · rw [beq_iff_eq.mp hQuoted] at hText
      exact quotesPaired_of_text hText
    · obtain ⟨hp, hq⟩ := Bool.and_eq_true_iff.mp hBoth
      exact (matches_alt_iff.mp hText).elim (ihp · hp) (ihq · hq)
  | many p ih =>
    exact matches_many_induction (quotesPaired_of_not_mem List.not_mem_nil)
      (fun t u ht _ hu => (ih ht h).append hu) hText

/-- Tokens whose quotes are paired, with gaps between them, are a text whose quotes are. -/
theorem quotesPaired_of_spaced {ts : List (List Char)} (h : Comparison.Spaced ts s)
    (hTokens : ∀ t ∈ ts, QuotesPaired t) : QuotesPaired s := by
  induction h with
  | nil => exact quotesPaired_of_not_mem List.not_mem_nil
  | @cons gap t s ts hGaps _ ih =>
    obtain ⟨ht, hRest⟩ := List.forall_mem_cons.mp hTokens
    have hGap : QuotesPaired gap := quotesPaired_of_not_mem fun hMem => by
      have := hGaps _ hMem
      cases this
    exact hGap.append (ht.append (ih hRest))

/-- No token of a comparison ends inside a literal. -/
theorem quotesPaired_tokens (e : Comparison.Tree) : ∀ t ∈ e.tokens, QuotesPaired t := by
  -- one case for each tree: variables, operators, values, connectives and brackets pair their
  -- quotes
  induction e with
  | comparison c =>
    have hOperator := quotesPaired_of_matches c.operator.matches_text (by decide)
    simp only [Comparison.Tree.tokens, Comparison.Single.tokens, List.forall_mem_cons]
    exact ⟨quotesPaired_of_matches c.isVar (by decide), hOperator,
      quotesPaired_of_matches c.isValue (by decide), by simp⟩
  | joined left connective right ihLeft ihRight =>
    exact List.forall_mem_append.mpr ⟨ihLeft, List.forall_mem_cons.mpr
      ⟨quotesPaired_of_matches connective.matches_text (by decide), ihRight⟩⟩
  | bracketed inner ih =>
    have hBracket {c : Char} (hc : '"' ≠ c) : QuotesPaired [c] :=
      quotesPaired_of_not_mem (by simpa using hc)
    exact List.forall_mem_cons.mpr ⟨hBracket (by decide), List.forall_mem_append.mpr
      ⟨ih, List.forall_mem_singleton.mpr (hBracket (by decide))⟩⟩

/-- The quotes of a condition are paired. -/
theorem quotesPaired_of_isWriting {e : Comparison.Tree} (h : e.IsWriting s) : QuotesPaired s := by
  obtain ⟨m, after, hSpaced, hAfter, rfl⟩ := Comparison.Tree.isWriting_iff.mp h
  have hGap : QuotesPaired after := quotesPaired_of_not_mem fun hMem => by
    have := hAfter _ hMem
    cases this
  exact (quotesPaired_of_spaced hSpaced (quotesPaired_tokens e)).append hGap

-- ---------------------------------------------------------------------------
-- Patterns with quotes in one part
-- ---------------------------------------------------------------------------

/-- Whether a character stands in one part of the texts of a pattern only, whose own pattern is of
some form. -/
def Pattern.confines (d : Char) (form : Pattern → Bool) : Pattern → Bool
  | seq p q =>
    form (seq p q) || p.confines d form && q.excludes d || p.excludes d && q.confines d form
  | p => form p

theorem exists_of_confines {d : Char} {form : Pattern → Bool} {p : Pattern} (hText : Matches p s)
    (h : p.confines d form = true) :
    ∃ q front inner back, form q = true ∧ Matches q inner ∧ d ∉ front ∧ d ∉ back ∧
      s = front ++ (inner ++ back) := by
  have hSelf {p : Pattern} {s : List Char} (hText : Matches p s) (hForm : form p = true) :
      ∃ q front inner back, form q = true ∧ Matches q inner ∧ d ∉ front ∧ d ∉ back ∧
        s = front ++ (inner ++ back) :=
    ⟨p, [], s, [], hForm, hText, List.not_mem_nil, List.not_mem_nil, by simp⟩
  -- the character is in the part of a sequence that does not exclude it
  induction p generalizing s with
  | seq p q ihp ihq =>
    rw [Pattern.confines, Bool.or_eq_true, Bool.or_eq_true, Bool.and_eq_true, Bool.and_eq_true] at h
    rcases h with (hForm | ⟨hp, hq⟩) | ⟨hp, hq⟩
    · exact hSelf hText hForm
    · obtain ⟨t, u, ht, hu, rfl⟩ := matches_seq_iff.mp hText
      obtain ⟨r, front, inner, back, hForm, hInner, hFront, hBack, rfl⟩ := ihp ht hp
      exact ⟨r, front, inner, back ++ u, hForm, hInner, hFront,
        by simp [hBack, not_mem_of_excludes hu hq], by simp⟩
    · obtain ⟨t, u, ht, hu, rfl⟩ := matches_seq_iff.mp hText
      obtain ⟨r, front, inner, back, hForm, hInner, hFront, hBack, rfl⟩ := ihq hu hq
      exact ⟨r, t ++ front, inner, back, hForm, hInner,
        by simp [hFront, not_mem_of_excludes ht hp], hBack, by simp⟩
  | nothing => exact hSelf hText h
  | chars k => exact hSelf hText h
  | alt p q _ _ => exact hSelf hText h
  | many p _ => exact hSelf hText h

end

-- ---------------------------------------------------------------------------
-- What is accepted
-- ---------------------------------------------------------------------------

section

variable {pre s post : List Char}

/-- A text with double quotes around a part of it. -/
def brokenText (pre s post : List Char) : List Char := pre ++ '"' :: (s ++ '"' :: post)

/-- What stands between two quotes stands in the part that all quotes stand in. -/
theorem subset_of_confines {form : Pattern → Bool} {p : Pattern}
    (hText : Matches p (brokenText pre s post)) (h : p.confines '"' form = true) :
    ∃ q inner, form q = true ∧ Matches q inner ∧ s ⊆ inner := by
  obtain ⟨q, front, inner, back, hForm, hInner, hFront, hBack, hSplit⟩ := exists_of_confines hText h
  obtain ⟨u, -, hRest⟩ := behind_of_not_mem hFront hSplit.symm
  have hAll : inner ++ back = (u ++ '"' :: s) ++ '"' :: post := by simpa using hRest
  obtain ⟨v, rfl, -⟩ := before_of_not_mem hBack hAll
  exact ⟨q, _, hForm, hInner, fun c hc => by simp [hc]⟩

/-- A raw line break right behind the first quote, with no other quote or escape before it, leaves
that quote open. -/
theorem not_quotesPaired (hFirst : '"' ∉ pre) (hPlain : ∀ d ∈ s, isQuote d = false ∧ d ≠ '\\')
    (hBreak : ∃ c ∈ s, isLineBreak c = true) : ¬ QuotesPaired (brokenText pre s post) := by
  intro h
  obtain ⟨a, u, w, rest, rfl, hSplit, hText⟩ := h pre _ rfl
  exact not_text_over_break (by simpa using (not_or.mp (by simpa using hFirst)).2) hPlain hBreak
    hSplit hText

/-- The parts of a polygon around its second quote. -/
def SplitsPolygon (pre s post : List Char) : Prop :=
  pre = [] ∧ (∃ inner, Matches polygonInner inner ∧ s = polygonBody inner) ∧
    post = polygonDatatype

/-- A polygon has two double quotes, so two quotes around a part of it are these. -/
theorem matches_polygon_broken_iff (hFirst : '"' ∉ pre) (hNone : '"' ∉ s) :
    Matches Token.polygon (brokenText pre s post) ↔ SplitsPolygon pre s post := by
  rw [matches_polygon_iff_inner]
  constructor
  · rintro ⟨inner, hInner, hSplit⟩
    rw [polygonText_eq] at hSplit
    -- no quote stands before the literal, so the first quote of both texts is the same one
    have hNil : '"' ∉ ([] : List Char) := List.not_mem_nil
    obtain ⟨rfl, hRest⟩ := append_cons_inj hFirst hNil hSplit
    have hBody : '"' ∉ polygonBody inner := fun hc => by
      simpa [isQuote] using (plain_of_polygonBody hInner _ hc).1
    -- likewise the second quote: neither part between the two holds one
    obtain ⟨rfl, rfl⟩ := append_cons_inj hNone hBody hRest
    exact ⟨rfl, ⟨inner, hInner, rfl⟩, rfl⟩
  · rintro ⟨rfl, ⟨inner, hInner, rfl⟩, rfl⟩
    exact ⟨inner, hInner, (polygonText_eq inner).symm⟩

/-- A pattern without a double quote refuses a text with two. -/
theorem not_accepts_of_excludes {p : Pattern} (h : p.excludes '"' = true) :
    p.accepts (brokenText pre s post) = false := by
  rw [Bool.eq_false_iff, ne_eq, accepts_iff]
  exact fun hText => not_mem_of_excludes hText h (by simp [brokenText])

/-- A pattern that keeps line feeds out of its quoted part refuses one there. -/
theorem no_feed_of_confines {p : Pattern} (hText : p.accepts (brokenText pre s post) = true)
    (h : p.confines '"' (·.excludes '\n') = true) : '\n' ∉ s := by
  obtain ⟨q, inner, hForm, hInner, hSubset⟩ := subset_of_confines (accepts_iff.mp hText) h
  exact fun hc => not_mem_of_excludes hInner hForm (hSubset hc)

/-- Quotes can stand in the unit of a circle only, which has no white space. -/
theorem not_accepts_circle_broken (hBreak : ∃ c ∈ s, isLineBreak c = true) :
    Token.circle.accepts (brokenText pre s post) = false := by
  rw [Bool.eq_false_iff, ne_eq, accepts_iff]
  intro hText
  have hConfined : Token.circle.confines '"' avoidsBlank = true := by decide
  obtain ⟨q, inner, hForm, hInner, hSubset⟩ := subset_of_confines hText hConfined
  obtain ⟨c, hMem, hBreak⟩ := hBreak
  have hBlank := isBlank_of_matches hInner hForm c (hSubset hMem)
  rcases cases_of_isLineBreak hBreak with rfl | rfl <;> cases hBlank

/-- A pattern that pairs quotes refuses a text that leaves one open. -/
theorem not_accepts_of_pairsQuotes {p : Pattern} (hPaired : ¬ QuotesPaired s)
    (h : p.pairsQuotes = true) : p.accepts s = false := by
  rw [Bool.eq_false_iff, ne_eq, accepts_iff]
  exact fun hText => hPaired (quotesPaired_of_matches hText h)

theorem not_isComparison_of_unpaired (hPaired : ¬ QuotesPaired s) : isComparison s = false := by
  rw [Bool.eq_false_iff]
  intro h
  obtain ⟨e, hWriting⟩ := Comparison.exists_of_isComparison h
  exact hPaired (quotesPaired_of_isWriting hWriting)

theorem not_isNestedComparison_of_unpaired (hPaired : ¬ QuotesPaired s) :
    isNestedComparison s = false := by
  rw [Bool.eq_false_iff]
  intro h
  obtain ⟨e, hWriting⟩ := Comparison.exists_of_isNestedComparison h
  exact hPaired (quotesPaired_of_isWriting hWriting)

/-- Kind by kind: a call without a line feed between the quotes, or a polygon. -/
theorem Kind.accepts_broken_iff {k : Kind} (hFirst : '"' ∉ pre)
    (hPlain : ∀ d ∈ s, isQuote d = false ∧ d ≠ '\\') (hBreak : ∃ c ∈ s, isLineBreak c = true) :
    k.accepts (brokenText pre s post) = true ↔
      ('\n' ∉ s ∧ (k = .function ∨ k = .assignment) ∧
        k.accepts (brokenText pre s post) = true) ∨
      (k = .polygon ∧ SplitsPolygon pre s post) := by
  have hNone : '"' ∉ s := fun hc => by simpa [isQuote] using (hPlain _ hc).1
  have hPaired : ¬ QuotesPaired (brokenText pre s post) := not_quotesPaired hFirst hPlain hBreak
  cases k with
  -- no quotes at all
  | var => simp [accepts, not_accepts_of_excludes (p := Token.var) (by decide)]
  | iri => simp [accepts, not_accepts_of_excludes (p := Token.iri) (by decide)]
  | prefixName => simp [accepts, not_accepts_of_excludes (p := Token.prefixName) (by decide)]
  | prefixedName => simp [accepts, not_accepts_of_excludes (p := Token.prefixedName) (by decide)]
  | path => simp [accepts, not_accepts_of_excludes (p := Token.path) (by decide)]
  -- quotes that open and close quoted texts
  | native => simp [accepts, not_accepts_of_pairsQuotes (p := Token.native) hPaired (by decide)]
  | comparison => simp [accepts, not_isComparison_of_unpaired hPaired]
  | nestedComparison => simp [accepts, not_isNestedComparison_of_unpaired hPaired]
  -- the three that are not of this form
  | function =>
    simp only [accepts, Bool.and_eq_true, reduceCtorEq, true_and, false_and, or_false]
    exact ⟨fun h => ⟨no_feed_of_confines h.1 (by decide), h⟩, fun h => h.2⟩
  | assignment =>
    simp only [accepts, Bool.and_eq_true, or_true, reduceCtorEq, true_and, false_and, or_false]
    exact ⟨fun h => ⟨no_feed_of_confines h.1 (by decide), h⟩, fun h => h.2⟩
  | circle => simp [accepts, not_accepts_circle_broken hBreak]
  | polygon => simp [accepts, accepts_iff, matches_polygon_broken_iff hFirst hNone]

end

/-- **Which expressions with a line break between quotes are accepted.** Let no double quote stand
before the two, and neither a quote nor a backslash between them. The expression is accepted only as
a call with a carriage return and no line feed there, or as a polygon with line breaks for white
space. -/
theorem acceptsAny_broken_iff {kinds : List Kind} {pre s post : String} (hFirst : '"' ∉ pre.toList)
    (hPlain : ∀ d ∈ s.toList, isQuote d = false ∧ d ≠ '\\')
    (hBreak : ∃ c ∈ s.toList, isLineBreak c = true) :
    Kind.acceptsAny kinds (pre ++ "\"" ++ s ++ "\"" ++ post) = true ↔
      ('\n' ∉ s.toList ∧ ∃ k ∈ kinds, (k = .function ∨ k = .assignment) ∧
        k.accepts (pre ++ "\"" ++ s ++ "\"" ++ post).toList = true) ∨
      (.polygon ∈ kinds ∧ SplitsPolygon pre.toList s.toList post.toList) := by
  have hText : (pre ++ "\"" ++ s ++ "\"" ++ post).toList =
      brokenText pre.toList s.toList post.toList := by
    simp [brokenText]
  simp only [Kind.acceptsAny, List.any_eq_true, hText]
  constructor
  · rintro ⟨k, hMem, hAccepted⟩
    -- each kind is settled on its own; a polygon is the only one that takes a line feed
    rcases (Kind.accepts_broken_iff hFirst hPlain hBreak).mp hAccepted with
      ⟨hFeed, hKind, -⟩ | ⟨rfl, hPolygon⟩
    · exact .inl ⟨hFeed, k, hMem, hKind, hAccepted⟩
    · exact .inr ⟨hMem, hPolygon⟩
  · rintro (⟨-, k, hMem, -, hAccepted⟩ | ⟨hMem, hPolygon⟩)
    · exact ⟨k, hMem, hAccepted⟩
    · exact ⟨_, hMem, (Kind.accepts_broken_iff hFirst hPlain hBreak).mpr (.inr ⟨rfl, hPolygon⟩)⟩

/-- A call with a line feed between its quotes is of no kind at all. -/
theorem line_feed_rejected :
    Kind.acceptsAny Kind.all ("regex(?x, " ++ "\"" ++ "a\nb" ++ "\"" ++ ")") = false := by
  rw [Bool.eq_false_iff, ne_eq, acceptsAny_broken_iff (by decide) (by simp [isQuote])
    ⟨'\n', by decide, rfl⟩]
  rintro (⟨hFeed, -⟩ | ⟨-, hStart, -⟩)
  · exact hFeed (by decide)
  · exact absurd hStart (by decide)

/-- A carriage return between the quotes of a call is accepted, and so is a line feed between those
of a polygon. -/
theorem line_break_accepted :
    (∃ kinds pre s post, (∀ c ∈ pre.toList, isQuote c = false) ∧
      (∀ d ∈ s.toList, isQuote d = false ∧ d ≠ '\\') ∧ '\r' ∈ s.toList ∧
      Kind.acceptsAny kinds (pre ++ "\"" ++ s ++ "\"" ++ post) = true) ∧
    ∃ kinds pre s post, (∀ c ∈ pre.toList, isQuote c = false) ∧
      (∀ d ∈ s.toList, isQuote d = false ∧ d ≠ '\\') ∧ '\n' ∈ s.toList ∧
      Kind.acceptsAny kinds (pre ++ "\"" ++ s ++ "\"" ++ post) = true :=
  ⟨⟨[.function], "regex(str(?name), ", "a\rb", ", \"i\")", by simp [isQuote],
      by simp [isQuote], by decide, by decide +kernel⟩,
    [.polygon], "", "POLYGON((1\n2))", "^^geo:wktLiteral", by simp, by simp [isQuote], by decide,
      by decide +kernel⟩

end SparqlSelect
