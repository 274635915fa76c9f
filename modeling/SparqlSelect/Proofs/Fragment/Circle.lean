import SparqlSelect.Fragment.Kind
import SparqlSelect.Proofs.Fragment.Comparison
import SparqlSelect.Proofs.Fragment.Sealed
import SparqlSelect.Proofs.Pattern.Blanks
import SparqlSelect.Proofs.Pattern.Ends

/-!
# Circles and polygons are no conditions

A condition is a call, a comparison, or an expression made of comparisons. A polygon starts with a
quote, and so does none of these. A circle starts with a bracket, so it could only be an expression;
but an expression ends in the value of its last comparison, and where this ends in a closing angle
bracket it is a quoted text with an IRI for its datatype. In front of the unit of a circle stands a
number, and no quote.

* `Closes`, `closes_of_expression` — how the text of an expression ends.
* `not_condition_polygon`, `not_condition_circle` — neither can stand in a `FILTER`.
-/

namespace SparqlSelect

open Pattern

namespace Comparison

/-- How the text of an expression ends: in a value that is compared with, or in a bracket behind
another expression. -/
inductive Closes : List Char → Prop
  | value (u : List Char) {v : List Char} :
    Matches (Token.typedText ||| Token.number) v → Closes (u ++ v)
  | bracket {t gap : List Char} : Closes t → (∀ c ∈ gap, isGap c = true) →
    Closes (t ++ gap ++ [')'])

section

variable {p : Pattern} {s t rest : List Char} {room : Room} {part : Part}

theorem Closes.append_left (u : List Char) (h : Closes t) : Closes (u ++ t) := by
  induction h with
  | value u' hv =>
    rw [← List.append_assoc]
    exact .value _ hv
  | bracket _ hGap ih =>
    rw [List.append_assoc, ← List.append_assoc u, ← List.append_assoc]
    exact .bracket ih hGap

theorem closes_of_comparison? (h : comparison? s = some rest) :
    ∃ used, s = used ++ rest ∧ Closes used := by
  obtain ⟨r, hVar, h⟩ := Option.bind_eq_some_iff.mp h
  obtain ⟨r', hOperator, hValue⟩ := Option.bind_eq_some_iff.mp h
  obtain ⟨gap, v, rfl, -, -⟩ := exists_of_token? hVar
  obtain ⟨gap', v', rfl, -, -⟩ := exists_of_token? hOperator
  obtain ⟨gap'', v'', rfl, -, hText⟩ := exists_of_token? hValue
  exact ⟨gap ++ v ++ (gap' ++ v' ++ (gap'' ++ v'')), by simp only [List.append_assoc],
    ((Closes.value gap'' hText).append_left _).append_left _⟩

/-- What is taken of a text closes, unless nothing is joined. -/
theorem Takes.closes (h : Takes room part s rest) :
    ∃ used, s = used ++ rest ∧ (Closes used ∨ part = .joined ∧ used = []) := by
  -- induction on the derivation: every rule but the empty one ends in a token that closes
  induction h with
  | comparison hComparison =>
    obtain ⟨used, hSplit, hCloses⟩ := closes_of_comparison? hComparison
    exact ⟨used, hSplit, .inl hCloses⟩
  | bracket _ hOpen _ _ hClose ih =>
    obtain ⟨gap, v, rfl, -, -⟩ := exists_of_token? hOpen
    obtain ⟨used, rfl, hUsed | ⟨hPart, -⟩⟩ := ih
    · obtain ⟨gap', v', rfl, hGap, hText⟩ := exists_of_token? hClose
      obtain rfl := eq_of_matches_word (w := [')']) hText
      refine ⟨gap ++ v ++ (used ++ gap' ++ [')']), by simp only [List.append_assoc], ?_⟩
      exact .inl ((Closes.bracket hUsed hGap).append_left _)
    · cases hPart
  | expression _ _ ihOperand ihJoined =>
    obtain ⟨used, rfl, hUsed | ⟨hPart, -⟩⟩ := ihOperand
    · obtain ⟨used', rfl, hUsed' | ⟨-, rfl⟩⟩ := ihJoined
      · exact ⟨used ++ used', (List.append_assoc ..).symm, .inl (hUsed'.append_left _)⟩
      · exact ⟨used, rfl, .inl hUsed⟩
    · cases hPart
  | more hConnective _ _ ihOperand ihJoined =>
    obtain ⟨gap, v, rfl, -, -⟩ := exists_of_token? hConnective
    obtain ⟨used, rfl, hUsed | ⟨hPart, -⟩⟩ := ihOperand
    · obtain ⟨used', rfl, hUsed' | ⟨-, rfl⟩⟩ := ihJoined
      · refine ⟨gap ++ v ++ (used ++ used'), by simp only [List.append_assoc], .inl ?_⟩
        exact (hUsed'.append_left _).append_left _
      · exact ⟨gap ++ v ++ used, by simp only [List.append_assoc, List.nil_append],
          .inl (hUsed.append_left _)⟩
    · cases hPart
  | done => exact ⟨[], rfl, .inr ⟨rfl, rfl⟩⟩

/-- The text of an expression closes, but for gaps at its end. -/
theorem closes_of_expression (h : ends (restAfter room .expression s) = true) :
    ∃ used gap, s = used ++ gap ∧ Closes used ∧ ∀ c ∈ gap, isGap c = true := by
  cases hRead : restAfter room .expression s with
  | error e =>
    rw [hRead] at h
    cases h
  | ok rest =>
    rw [hRead] at h
    obtain ⟨used, hSplit, hUsed | ⟨hPart, -⟩⟩ := (takes_of_restAfter hRead).closes
    · exact ⟨used, rest, hSplit, hUsed, List.all_eq_true.mp h⟩
    · cases hPart

-- ---------------------------------------------------------------------------
-- Values that are compared with
-- ---------------------------------------------------------------------------

/-- A text does not end in a character that its pattern excludes. -/
theorem endsIn_of_excludes {d : Char} (h : p.excludes d = true) : EndsIn (· ≠ d) p := by
  rintro s hText _ hc rfl
  exact not_mem_of_excludes hText h (List.mem_of_getLast? hc)

/-- A value that ends in a closing angle bracket is a quoted text with an IRI for its datatype, and
between these there are white space and carets. -/
theorem exists_of_value (h : Matches (Token.typedText ||| Token.number) (t ++ ['>'])) :
    ∃ u q m b, isQuote q = true ∧ (∀ c ∈ m, isBlank c = true ∨ c = '^') ∧
      Matches iriBody b ∧ t = u ++ q :: (m ++ '<' :: b) := by
  have hLast : (t ++ ['>']).getLast? = some '>' := List.getLast?_concat
  rcases matches_alt_iff.mp h with hTyped | hNumber
  · obtain ⟨text, tail, hText, hTail, hSplit⟩ := matches_typedText_iff.mp hTyped
    obtain ⟨_, name, hGaps, hName, rfl⟩ := matches_seq_iff.mp hTail
    rcases matches_alt_iff.mp hName with hIri | hPrefixed
    · obtain ⟨q, body, hQuote, -, rfl⟩ := matches_text_iff_quotes.mp hText
      obtain ⟨_, after, hMarked, hAfter, rfl⟩ := matches_seq_iff.mp hGaps
      obtain ⟨before, mark, hBefore, hMark, rfl⟩ := matches_seq_iff.mp hMarked
      obtain rfl := eq_of_matches_word hMark
      obtain ⟨b, hBody, rfl⟩ := matches_iri_iff.mp hIri
      refine ⟨q :: body, q, before ++ ['^', '^'] ++ after, b, hQuote, fun c hc => ?_, hBody, ?_⟩
      · simp only [List.mem_append, List.mem_cons, List.not_mem_nil, or_false, or_self] at hc
        rcases hc with (hc | rfl) | hc
        · exact .inl (isBlank_of_matches_blanks hBefore c hc)
        · exact .inr rfl
        · exact .inl (isBlank_of_matches_blanks hAfter c hc)
      · refine List.append_cancel_right (hSplit.trans ?_)
        simp
    · -- the name of a prefixed datatype has no angle bracket
      have hEnds : EndsIn (· ≠ '>') (Token.text ++ (blanks ++ word ['^', '^'] ++ blanks) ++
          Token.prefixedName) := (endsIn_of_excludes (by decide)).afterAny (by decide)
      rw [hSplit, ← List.append_assoc] at hLast
      exact absurd rfl (hEnds _ (.seq (.seq hText hGaps) hPrefixed) _ hLast)
  · exact absurd rfl (endsIn_of_excludes (by decide) _ hNumber _ hLast)

/-- No value ends in a bracket. -/
theorem endsIn_value : EndsIn (· ≠ ')') (Token.typedText ||| Token.number) := by
  have hIri : EndsIn (· ≠ ')') Token.iri :=
    EndsIn.afterAny (endsIn_of_excludes (by decide)) (by decide)
  have hPrefixed : EndsIn (· ≠ ')') Token.prefixedName := endsIn_of_excludes (by decide)
  have hNumber : EndsIn (· ≠ ')') Token.number := endsIn_of_excludes (by decide)
  exact ((hIri.alt hPrefixed).afterAny (by decide)).alt hNumber

/-- No gaps stand at the end of a text that ends in anything else. -/
theorem eq_nil_of_gap {used gap : List Char} {d : Char} (hd : isGap d = false)
    (hGap : ∀ c ∈ gap, isGap c = true) (h : t ++ [d] = used ++ gap) : gap = [] := by
  rcases List.eq_nil_or_concat gap with rfl | ⟨gap, c, rfl⟩
  · rfl
  · rw [List.concat_eq_append] at h hGap
    rw [← List.append_assoc] at h
    obtain rfl := List.singleton_inj.mp (List.append_inj' h rfl).2
    rw [hGap d (by simp)] at hd
    cases hd

/-- In front of a closing bracket stands another expression, and anything else is the end of a
value. -/
theorem Closes.cases_concat {d : Char} (h : Closes (t ++ [d])) :
    (∃ u v, t = u ++ v ∧ Matches (Token.typedText ||| Token.number) (v ++ [d])) ∧ d ≠ ')' ∨
      d = ')' ∧ ∃ used gap, t = used ++ gap ∧ Closes used ∧ ∀ c ∈ gap, isGap c = true := by
  generalize hs : t ++ [d] = s at h
  -- what closes is a value, which has a last character, or a bracket
  cases h with
  | @value u v hv =>
    rcases List.eq_nil_or_concat v with rfl | ⟨v', c, rfl⟩
    · exact absurd (acceptsEmpty_iff.mpr hv) (by decide)
    · rw [List.concat_eq_append] at hs hv
      rw [← List.append_assoc] at hs
      obtain ⟨rfl, hLast⟩ := List.append_inj' hs rfl
      obtain rfl := List.singleton_inj.mp hLast
      exact .inl ⟨⟨u, v', rfl, hv⟩, endsIn_value _ hv _ List.getLast?_concat⟩
  | @bracket used gap hInner hGap =>
    obtain ⟨rfl, hLast⟩ := List.append_inj' hs rfl
    exact .inr ⟨List.singleton_inj.mp hLast, used, gap, rfl, hInner, hGap⟩

/-- In front of a bracket that stands behind a closing angle bracket is an IRI, and between a quote
and the IRI are white space and carets. -/
theorem exists_of_closes (h : Closes (t ++ ['>'] ++ [')'])) :
    ∃ u q m b, isQuote q = true ∧ (∀ c ∈ m, isBlank c = true ∨ c = '^') ∧
      Matches iriBody b ∧ t = u ++ q :: (m ++ '<' :: b) := by
  obtain ⟨-, hOther⟩ | ⟨-, used, gap, hSplit, hUsed, hGap⟩ := h.cases_concat
  · exact absurd rfl hOther
  have hNone := eq_nil_of_gap (by decide) hGap hSplit
  rw [hNone, List.append_nil] at hSplit
  obtain ⟨⟨u, v, rfl, hv⟩, -⟩ | ⟨hBracket, -⟩ := (hSplit ▸ hUsed).cases_concat
  · obtain ⟨u', q, m, b, hQuote, hGaps, hBody, rfl⟩ := exists_of_value hv
    exact ⟨u ++ u', q, m, b, hQuote, hGaps, hBody, by rw [List.append_assoc]⟩
  · exact absurd hBracket (by decide)

end

end Comparison

-- ---------------------------------------------------------------------------
-- Polygons and circles
-- ---------------------------------------------------------------------------

open Comparison

/-- No polygon can stand in a `FILTER`. -/
theorem not_condition_polygon {e : String} {rest : List Char} (h : e.toList = '"' :: rest) :
    Kind.acceptsAny Kind.forFilter e = false := by
  obtain ⟨hComparison, hNested, -⟩ :=
    isComparison_cons (c := '"') (by decide) (by decide) (by decide) rest
  have hFunction : Token.function.accepts ('"' :: rest) = false := by
    rw [Bool.eq_false_iff, ne_eq, accepts_iff]
    exact not_matches_cons (by decide) rest
  simp [Kind.acceptsAny, Kind.forFilter, Kind.accepts, h, hComparison, hNested, hFunction]

section

variable {m b u w front unit rest : List Char} {d q : Char}

/-- In white space and carets followed by an IRI, white space comes after nothing else. -/
theorem not_before_blank (hGaps : ∀ c ∈ m, isBlank c = true ∨ c = '^') (hBody : Matches iriBody b)
    (hBlank : isBlank d = false) (hCaret : d ≠ '^') :
    m ++ '<' :: b ≠ w ++ d :: ' ' :: rest := by
  intro h
  have hSpace : ' ' ∉ '<' :: b := by
    rw [List.mem_cons]
    exact fun hMem => hMem.elim (by decide) (not_mem_of_excludes hBody (by decide))
  -- the unit starts before the blank, at it, or in the gap behind it
  rcases List.append_eq_append_iff.mp h with ⟨z, rfl, hz⟩ | ⟨z, rfl, hz⟩
  · exact hSpace (by simp [hz])
  · cases z with
    | nil =>
      rw [List.nil_append] at hz
      exact hSpace (by simp [← hz])
    | cons c z =>
      obtain rfl := (List.cons.inj hz).1
      rcases hGaps d (by simp) with hd | hd
      · rw [hBlank] at hd
        cases hd
      · exact hCaret hd

/-- A word and then a unit without quotes: there is no quote with only white space, carets and an
IRI behind it. -/
theorem not_after_quote (hBlank : isBlank d = false) (hCaret : d ≠ '^') (hWord : isQuote d = false)
    (hUnit : ∀ c ∈ unit, isQuote c = false) (hq : isQuote q = true)
    (hGaps : ∀ c ∈ m, isBlank c = true ∨ c = '^') (hBody : Matches iriBody b) :
    front ++ d :: ' ' :: '<' :: unit ≠ u ++ q :: (m ++ '<' :: b) := by
  intro h
  -- nothing behind the blank is a quote
  have hBehind : q ∉ d :: ' ' :: '<' :: unit := by
    intro hMem
    have hAll : ∀ c ∈ d :: ' ' :: '<' :: unit, isQuote c = false := by
      simpa [hWord, show isQuote ' ' = false from rfl, show isQuote '<' = false from rfl]
        using hUnit
    rw [hAll q hMem] at hq
    cases hq
  rcases List.append_eq_append_iff.mp h with ⟨z, -, hz⟩ | ⟨z, -, hz⟩
  · exact hBehind (by simp [hz])
  · cases z with
    | nil =>
      rw [List.nil_append] at hz
      exact hBehind (by simp [← hz])
    | cons c z => exact not_before_blank hGaps hBody hBlank hCaret (List.cons.inj hz).2

end

/-- What starts with a bracket is neither a call nor a comparison. -/
theorem not_accepts_bracket (s : List Char) :
    Token.function.accepts ('(' :: s) = false ∧ isComparison ('(' :: s) = false := by
  constructor
  · rw [Bool.eq_false_iff, ne_eq, accepts_iff]
    exact not_matches_cons (by decide) s
  · rw [isComparison, comparison?, token?_eq_none (by decide) (by decide) rfl]
    rfl

/-- No circle with a word in front of its unit and no quotes in it can stand in a `FILTER`. -/
theorem not_condition_circle {e : String} {front unit : List Char} {d : Char}
    (h : e.toList = '(' :: (front ++ d :: ' ' :: '<' :: unit) ++ ['>'] ++ [')'])
    (hBlank : isBlank d = false) (hCaret : d ≠ '^') (hQuote : isQuote d = false)
    (hUnit : ∀ c ∈ unit, isQuote c = false) : Kind.acceptsAny Kind.forFilter e = false := by
  -- the text starts with a bracket, so it could only be a nested comparison
  obtain ⟨hFunction, hComparison⟩ : Token.function.accepts e.toList = false ∧
      isComparison e.toList = false := by
    rw [h]
    exact not_accepts_bracket _
  have hNested : ends (restAfter none .expression e.toList) = false := by
    rw [Bool.eq_false_iff, ne_eq, h]
    intro hEnds
    obtain ⟨used, gap, hSplit, hUsed, hGap⟩ := closes_of_expression hEnds
    rw [eq_nil_of_gap (by decide) hGap hSplit, List.append_nil] at hSplit
    obtain ⟨u, q, m, b, hq, hGaps, hBody, hInner⟩ := exists_of_closes (hSplit ▸ hUsed)
    exact not_after_quote hBlank hCaret hQuote hUnit hq hGaps hBody
      ((List.cons_append ..).trans hInner)
  simp [Kind.acceptsAny, Kind.forFilter, Kind.accepts, isNestedComparison, hComparison, hNested,
    hFunction]

end SparqlSelect
