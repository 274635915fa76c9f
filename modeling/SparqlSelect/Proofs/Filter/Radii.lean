import SparqlSelect.Proofs.Filter.Places
import SparqlSelect.Proofs.Fragment.Grammar
import SparqlSelect.Proofs.Fragment.Kinds

/-!
# Circles with another radius

Where the unit of a circle has a quote in it, the circle can be read as a condition: the quote then
ends a text in which the radius stands. With another radius it is read the same way, because there
is no other place for a radius. It has a space in front of it, and a space and an angle bracket
behind, and neither the gaps nor the other tokens of a condition hold all of this.

* `beforeUnit` — a number with what stands around it.
* `matches_comparedValue_exchanged` — the only token that holds it is a text, between its quotes.
* `exists_exchanged` — with another number the text writes a condition that is as deep.
* `circle_exchanged` — a circle that is accepted is accepted with any radius.
-/

namespace SparqlSelect

open Pattern Comparison

variable {front back b b' g m r r' s t u v : List Char} {q : Char}

/-- The text of a number. -/
structure IsNumberText (r : List Char) : Prop where
  notEmpty : r ≠ []
  parts : ∀ c ∈ r, isNumberPart c = true

/-- A number as it stands in front of a unit. -/
def beforeUnit (r : List Char) : List Char := ' ' :: (r ++ [' ', '<'])

/-- A number of kilometers has the text of a number. -/
theorem isNumberText_kilometers (meters : Binary64) :
    IsNumberText (kilometers meters).toList := by
  refine ⟨?_, ?_⟩
  · obtain ⟨t, c, hLast, -⟩ := exists_last_kilometers meters
    simp [hLast]
  · intro c hc
    rw [kilometers, String.toList_ofList, List.mem_reverse] at hc
    have hMem := (List.dropWhile_sublist _).subset ((List.dropWhile_sublist _).subset hc)
    exact isNumberPart_fixedHundredths _ c (List.mem_reverse.mp hMem)

/-- What is no part of a number, no space and no angle bracket does not stand there. -/
theorem not_mem_beforeUnit (hr : IsNumberText r) {k : Char} (hPart : isNumberPart k = false)
    (hOther : k ∉ [' ', '<']) : k ∉ beforeUnit r := by
  intro hMem
  simp only [beforeUnit, List.mem_cons, List.mem_append] at hMem
  obtain rfl | hk | hk := hMem
  · exact hOther List.mem_cons_self
  · rw [hr.parts k hk] at hPart
    cases hPart
  · exact hOther (by simpa using hk)

/-- What stands in one piece stands on one side of a character that is not in it. -/
theorem beside_of_not_mem {k : Char} (h : k ∉ m) (hSplit : u ++ k :: v = front ++ (m ++ back)) :
    (∃ z, u = front ++ (m ++ z) ∧ back = z ++ k :: v) ∨
      ∃ z, v = z ++ (m ++ back) ∧ front = u ++ k :: z := by
  rcases List.append_eq_append_iff.mp hSplit with ⟨z, rfl, hz⟩ | ⟨z, rfl, hz⟩
  · cases z with
    | nil =>
      obtain ⟨w, hw, rfl⟩ := behind_of_not_mem (t := []) h hz.symm
      obtain ⟨rfl, rfl⟩ := List.append_eq_nil_iff.mp hw.symm
      exact .inl ⟨[], by simp, rfl⟩
    | cons c z =>
      obtain ⟨rfl, rfl⟩ := List.cons.inj hz
      exact .inr ⟨z, rfl, rfl⟩
  · obtain ⟨w, rfl, rfl⟩ := behind_of_not_mem h hz
    exact .inl ⟨w, rfl, rfl⟩

/-- A number in front of a unit stands ahead of gaps, since the angle bracket is none. -/
theorem ahead_of_gaps (hGaps : Gaps g) (hSplit : u ++ g = front ++ (beforeUnit r ++ back)) :
    ∃ z, u = front ++ (beforeUnit r ++ z) ∧ back = z ++ g := by
  have hAngle : '<' ∉ g := fun hMem => absurd (hGaps '<' hMem) (by decide)
  have hShape : u ++ g = (front ++ ' ' :: (r ++ [' '])) ++ '<' :: back := by
    simp [hSplit, beforeUnit]
  obtain ⟨z, rfl, rfl⟩ := before_of_not_mem hAngle hShape
  exact ⟨z, by simp [beforeUnit], rfl⟩

/-- A number in front of a unit stands on one side of a token behind gaps, too. -/
theorem beside_token (hr : IsNumberText r) (hGaps : Gaps g) {k : Char}
    (hPart : isNumberPart k = false) (hOther : k ∉ [' ', '<'])
    (hSplit : u ++ (g ++ k :: v) = front ++ (beforeUnit r ++ back)) :
    (∃ z, u = front ++ (beforeUnit r ++ z) ∧ back = z ++ (g ++ k :: v)) ∨
      ∃ z, v = z ++ (beforeUnit r ++ back) ∧ front = u ++ (g ++ k :: z) := by
  rw [← List.append_assoc] at hSplit
  rcases beside_of_not_mem (not_mem_beforeUnit hr hPart hOther) hSplit with
    ⟨z, hBefore, rfl⟩ | ⟨z, hBehind, rfl⟩
  · obtain ⟨w, rfl, rfl⟩ := ahead_of_gaps hGaps hBefore
    exact .inl ⟨w, rfl, by simp⟩
  · exact .inr ⟨z, hBehind, by simp⟩

/-- Nothing is too short to hold a number in front of a unit. -/
theorem ne_beforeUnit (front r back : List Char) : [] ≠ front ++ (beforeUnit r ++ back) := by
  simp [beforeUnit]

-- ---------------------------------------------------------------------------
-- Quoted texts
-- ---------------------------------------------------------------------------

/-- A part of a number can stand in any quoted text. -/
theorem matches_partOf_number (hQuote : isQuote q = true) {c : Char} (hc : isNumberPart c = true) :
    Matches (partOf q) [c] := by
  obtain ⟨hBlank, -, hNoQuote⟩ := plain_of_isNumberPart hc
  refine .left (.chars ?_)
  -- what a part may not be is a quote, a backslash or a line break
  have hOther : c ∉ [q, '\\', '\n', '\r'] := by
    simp only [List.mem_cons, List.not_mem_nil, or_false, not_or]
    refine ⟨?_, ?_, ?_, ?_⟩
    · rintro rfl
      rw [hQuote] at hNoQuote
      cases hNoQuote
    · rintro rfl
      exact absurd hc (by decide)
    · rintro rfl
      exact absurd hBlank (by decide)
    · rintro rfl
      exact absurd hBlank (by decide)
  simpa [CharClass.contains, CharClass.contains_anyOf] using hOther

/-- A quoted text can be parted behind a space, which may be the end of an escape, and then go on in
any other way. -/
theorem matches_body_behind_space (h : Matches (many (partOf q)) (b ++ ' ' :: u)) :
    Matches (many (partOf q)) u ∧
      ∀ v, Matches (many (partOf q)) v → Matches (many (partOf q)) (b ++ ' ' :: v) := by
  refine matches_many_induction (P := fun s => ∀ b, s = b ++ ' ' :: u →
    Matches (many (partOf q)) u ∧
      ∀ v, Matches (many (partOf q)) v → Matches (many (partOf q)) (b ++ ' ' :: v)) ?_ ?_ h b rfl
  · intro b hb
    simp at hb
  · intro t w hPart hRest ih b hSplit
    obtain ⟨c, rfl, -, -⟩ | ⟨c, rfl⟩ := cases_of_matches_partOf hPart
    · cases b with
      | nil =>
        obtain ⟨rfl, rfl⟩ := List.cons.inj hSplit
        exact ⟨hRest, fun v hv => .more (s := [' ']) hPart hv⟩
      | cons d b =>
        obtain ⟨rfl, hTail⟩ := List.cons.inj hSplit
        obtain ⟨hBehind, hOther⟩ := ih b hTail
        exact ⟨hBehind, fun v hv => .more (s := [c]) hPart (hOther v hv)⟩
    · cases b with
      | nil => exact absurd (List.cons.inj hSplit).1 (by decide)
      | cons d b =>
        obtain ⟨rfl, hTail⟩ := List.cons.inj hSplit
        cases b with
        | nil =>
          -- the space is what is escaped
          obtain ⟨rfl, rfl⟩ := List.cons.inj hTail
          exact ⟨hRest, fun v hv => .more (s := ['\\', ' ']) hPart hv⟩
        | cons e b =>
          obtain ⟨rfl, hEnd⟩ := List.cons.inj hTail
          obtain ⟨hBehind, hOther⟩ := ih b hEnd
          exact ⟨hBehind, fun v hv => .more (s := ['\\', c]) hPart (hOther v hv)⟩

/-- What stands behind a number in a quoted text can stand there without it. -/
theorem matches_body_behind_number (hr : ∀ c ∈ r, isNumberPart c = true)
    (h : Matches (many (partOf q)) (r ++ u)) : Matches (many (partOf q)) u := by
  induction r with
  | nil => exact h
  | cons c r ih =>
    obtain ⟨hc, hr⟩ := List.forall_mem_cons.mp hr
    obtain ⟨-, -, hRest⟩ | ⟨rfl, -⟩ := cases_of_matches_body h
    · exact ih hr hRest
    · exact absurd hc (by decide)

theorem matches_body_number (hQuote : isQuote q = true) (hr : ∀ c ∈ r, isNumberPart c = true)
    (h : Matches (many (partOf q)) u) : Matches (many (partOf q)) (r ++ u) := by
  induction r with
  | nil => exact h
  | cons c r ih =>
    obtain ⟨hc, hr⟩ := List.forall_mem_cons.mp hr
    exact .more (s := [c]) (matches_partOf_number hQuote hc) (ih hr)

/-- Between quotes, one number is as good as another. -/
theorem matches_body_exchanged (hQuote : isQuote q = true) (hr : IsNumberText r)
    (hr' : IsNumberText r') (h : Matches (many (partOf q)) (front ++ (beforeUnit r ++ back))) :
    Matches (many (partOf q)) (front ++ (beforeUnit r' ++ back)) := by
  have hShape (r : List Char) : front ++ (beforeUnit r ++ back) =
      front ++ ' ' :: (r ++ ' ' :: '<' :: back) := by
    simp [beforeUnit]
  rw [hShape] at h ⊢
  obtain ⟨hBehind, hOther⟩ := matches_body_behind_space h
  exact hOther _
    (matches_body_number hQuote hr'.parts (matches_body_behind_number hr.parts hBehind))

-- ---------------------------------------------------------------------------
-- Values that are compared with
-- ---------------------------------------------------------------------------

/-- The number does not start a value: what starts with it is no text, and a number ends before a
space. -/
theorem not_matches_comparedValue (hr : IsNumberText r) :
    ¬ Matches comparedValue (r ++ ' ' :: u) := by
  intro h
  obtain ⟨c, r, rfl⟩ := List.exists_cons_of_ne_nil hr.notEmpty
  obtain ⟨-, -, hQuote⟩ := plain_of_isNumberPart (hr.parts c List.mem_cons_self)
  rcases matches_alt_iff.mp h with hTyped | hNumber
  · exact not_matches_cons (following_typedText hQuote) _ hTyped
  · exact not_mem_of_excludes hNumber (d := ' ') (by decide) (by simp)

/-- What stands behind a quoted text has no room for a number in front of a unit. -/
theorem not_in_datatype {n : List Char} (hr : IsNumberText r) (hMark : Matches datatypeMark g)
    (hName : Matches datatypeName n) : g ++ n ≠ front ++ (beforeUnit r ++ back) := by
  intro hSplit
  -- the name has no spaces, so even the space behind the number is part of the mark
  have hShape : g ++ n = (front ++ ' ' :: r) ++ ' ' :: ('<' :: back) := by
    simp [hSplit, beforeUnit]
  obtain ⟨w, rfl, -⟩ := before_of_not_mem (not_mem_of_excludes hName (by decide)) hShape
  obtain ⟨c, hc⟩ := List.exists_mem_of_ne_nil r hr.notEmpty
  obtain ⟨hBlank, hCaret, -⟩ := plain_of_isNumberPart (hr.parts c hc)
  obtain ⟨_, after, hMarked, hAfter, hAll⟩ := matches_seq_iff.mp hMark
  obtain ⟨before, mark, hBefore, hCarets, rfl⟩ := matches_seq_iff.mp hMarked
  obtain rfl := eq_of_matches_word hCarets
  have hMem : c ∈ before ++ ['^', '^'] ++ after := hAll ▸ (by simp [hc])
  simp only [List.mem_append, List.mem_cons, List.not_mem_nil, or_false, or_self] at hMem
  rcases hMem with (hMem | hMem) | hMem
  · rw [isBlank_of_matches_blanks hBefore c hMem] at hBlank
    cases hBlank
  · exact hCaret hMem
  · rw [isBlank_of_matches_blanks hAfter c hMem] at hBlank
    cases hBlank

/-- A value that holds a number in front of a unit is a text, and it can hold another number. -/
theorem matches_comparedValue_exchanged (hr : IsNumberText r) (hr' : IsNumberText r')
    (h : Matches comparedValue (front ++ (beforeUnit r ++ back))) :
    Matches comparedValue (front ++ (beforeUnit r' ++ back)) := by
  rcases matches_alt_iff.mp h with hTyped | hNumber
  · obtain ⟨t, g, n, hSplit, hText, hMark, hName⟩ := matches_typedText_split hTyped
    obtain ⟨q, b, hQuote, hBody, rfl⟩ := matches_text_iff_quotes.mp hText
    have hNot : q ∉ beforeUnit r := by
      refine not_mem_beforeUnit hr ?_ ?_
      · rw [Bool.eq_false_iff]
        intro hPart
        rw [(plain_of_isNumberPart hPart).2.2] at hQuote
        cases hQuote
      · intro hMem
        rcases List.mem_pair.mp hMem with rfl | rfl <;> cases hQuote
    -- it stands behind the first quote and in front of the second
    have hFirst : [] ++ q :: (b ++ q :: (g ++ n)) = front ++ (beforeUnit r ++ back) := by
      simp [hSplit]
    rcases beside_of_not_mem hNot hFirst with ⟨z, hNothing, -⟩ | ⟨z, hSecond, rfl⟩
    · exact absurd hNothing (ne_beforeUnit _ _ _)
    rcases beside_of_not_mem hNot hSecond with ⟨w, rfl, rfl⟩ | ⟨w, hBehind, -⟩
    · have hOther := matches_text_iff_quotes.mpr
        ⟨q, _, hQuote, matches_body_exchanged hQuote hr hr' hBody, rfl⟩
      have hAll : [] ++ q :: z ++ (beforeUnit r' ++ (w ++ q :: (g ++ n))) =
          q :: (z ++ (beforeUnit r' ++ w) ++ [q]) ++ (g ++ n) := by simp
      rw [hAll]
      exact .left (matches_typedText_iff.mpr ⟨_, _, hOther, .seq hMark hName, rfl⟩)
    · exact absurd hBehind (not_in_datatype hr hMark hName)
  · exact absurd (by simp [beforeUnit]) (not_mem_of_excludes hNumber (d := ' ') (by decide))

-- ---------------------------------------------------------------------------
-- Conditions
-- ---------------------------------------------------------------------------

theorem Comparison.Operator.mem_text {op : Operator} {c : Char} (h : c ∈ op.text) :
    c ∈ operatorChars := by
  have hAll : (op.text.all fun c => operatorChars.contains c) = true := by
    cases op <;> decide
  exact List.contains_iff_mem.mp (List.all_eq_true.mp hAll c h)

/-- No part of a number stands between a variable and the value it is compared with. -/
theorem not_mem_around_operator (hGaps : Gaps g) (hGaps' : Gaps m) (op : Operator) {c : Char}
    (hPart : isNumberPart c = true) : c ∉ g ++ (op.text ++ m) := by
  have hAll : ((gapChars ++ operatorChars).all fun c => !isNumberPart c) = true := by decide
  have hNot : c ∉ gapChars ++ operatorChars := fun hMem => by
    simpa [hPart] using List.all_eq_true.mp hAll c hMem
  intro hMem
  simp only [List.mem_append] at hMem
  obtain hGap | hOperator | hGap := hMem
  · exact hNot (List.mem_append_left _ (isGap_iff.mp (hGaps c hGap)))
  · exact hNot (List.mem_append_right _ (op.mem_text hOperator))
  · exact hNot (List.mem_append_left _ (isGap_iff.mp (hGaps' c hGap)))

/-- Where a value stands behind a text without parts of a number, a number in front of a unit stands
in the value. -/
theorem exists_in_value (hr : IsNumberText r) (hNone : ∀ c, isNumberPart c = true → c ∉ m)
    (hValue : Matches comparedValue v) (hSplit : m ++ v = front ++ (beforeUnit r ++ back)) :
    ∃ w, front = m ++ w ∧ v = w ++ (beforeUnit r ++ back) := by
  obtain ⟨d, r, rfl⟩ := List.exists_cons_of_ne_nil hr.notEmpty
  have hShape : m ++ v = (front ++ [' ']) ++ d :: (r ++ ' ' :: '<' :: back) := by
    simpa [beforeUnit] using hSplit
  obtain ⟨w, hw, rfl⟩ := behind_of_not_mem (hNone d (hr.parts d List.mem_cons_self)) hShape
  -- the value does not start with the number, so the space in front of it is in the value too
  rcases List.eq_nil_or_concat w with rfl | ⟨w, c, rfl⟩
  · exact absurd hValue (not_matches_comparedValue hr)
  · rw [List.concat_eq_append, ← List.append_assoc] at hw
    obtain ⟨rfl, hLast⟩ := List.append_inj' hw rfl
    obtain rfl := List.singleton_inj.mp hLast
    exact ⟨w, rfl, by simp [beforeUnit]⟩

/-- A comparison that holds a number in front of a unit holds it in its value. -/
theorem exists_exchanged_single {single : Single} (hr : IsNumberText r) (hr' : IsNumberText r')
    (h : Spaced single.tokens (front ++ (beforeUnit r ++ back))) :
    ∃ single' : Single, Spaced single'.tokens (front ++ (beforeUnit r' ++ back)) := by
  obtain ⟨g, _, hGaps, hAfterVar, hSplit⟩ := spaced_cons_iff.mp h
  obtain ⟨g', _, hGaps', hAfterOperator, rfl⟩ := spaced_cons_iff.mp hAfterVar
  obtain ⟨g'', _, hGaps'', hAfterValue, rfl⟩ := spaced_cons_iff.mp hAfterOperator
  obtain rfl := spaced_nil_iff.mp hAfterValue
  obtain ⟨k, x, hVar, hk⟩ := exists_of_matches_var single.isVar
  have hSpace : ' ' ∉ x := fun hMem =>
    not_mem_of_excludes single.isVar (d := ' ') (by decide) (hVar ▸ List.mem_cons_of_mem k hMem)
  -- not in front of the variable, and not in it
  have hFirst : [] ++ (g ++ k :: (x ++ (g' ++ (single.operator.text ++ (g'' ++ single.value))))) =
      front ++ (beforeUnit r ++ back) := by
    simpa [hVar] using hSplit.symm
  have hSign : isNumberPart k = false ∧ k ∉ [' ', '<'] := by
    rcases hk with rfl | rfl <;> decide
  rcases beside_token hr hGaps hSign.1 hSign.2 hFirst with ⟨z, hNothing, -⟩ | ⟨z, hBehind, rfl⟩
  · exact absurd hNothing (ne_beforeUnit _ _ _)
  obtain ⟨z, rfl, hBehind⟩ := behind_of_not_mem hSpace hBehind
  -- not around the operator, since there is nothing of a number
  have hAround : g' ++ (single.operator.text ++ g'') ++ single.value =
      z ++ (beforeUnit r ++ back) := by
    simpa [beforeUnit] using hBehind
  obtain ⟨w, rfl, hHolds⟩ := exists_in_value hr
    (fun c hPart => not_mem_around_operator hGaps' hGaps'' single.operator hPart) single.isValue
    hAround
  refine ⟨⟨single.var, single.operator, _, single.isVar,
    matches_comparedValue_exchanged hr hr' (hHolds ▸ single.isValue)⟩, ?_⟩
  have hSpaced := Spaced.cons (t := single.var) hGaps
    (.cons (t := single.operator.text) hGaps'
      (.cons (t := w ++ (beforeUnit r' ++ back)) hGaps'' .nil))
  simpa [hVar, Single.tokens] using hSpaced

/-- **Another number.** A condition that holds a number in front of a unit is written with another
number as well, and it is as deep then. -/
theorem exists_exchanged {e : Tree} (hr : IsNumberText r) (hr' : IsNumberText r')
    (h : Spaced e.tokens (front ++ (beforeUnit r ++ back))) :
    ∃ e' : Tree, e'.depth = e.depth ∧ e'.isSingle = e.isSingle ∧
      Spaced e'.tokens (front ++ (beforeUnit r' ++ back)) := by
  -- induction on the tree: the unit stands inside one of its tokens, as no gap, bracket or
  -- connective has a part of it
  induction e generalizing front back with
  | comparison single =>
    obtain ⟨single', hSpaced⟩ := exists_exchanged_single hr hr' h
    exact ⟨.comparison single', rfl, rfl, hSpaced⟩
  | bracketed inner ih =>
    obtain ⟨g, _, hGaps, hAfterOpen, hSplit⟩ := spaced_cons_iff.mp h
    obtain ⟨s, _, hInner, hClose, rfl⟩ := spaced_append_iff.mp hAfterOpen
    obtain ⟨g', _, hGaps', hAfterClose, rfl⟩ := spaced_cons_iff.mp hClose
    obtain rfl := spaced_nil_iff.mp hAfterClose
    have hOpen : [] ++ (g ++ '(' :: (s ++ (g' ++ ')' :: []))) =
        front ++ (beforeUnit r ++ back) := by simpa using hSplit.symm
    rcases beside_token hr hGaps (by decide) (by decide) hOpen with ⟨z, hNothing, -⟩ | ⟨z, hIn, rfl⟩
    · exact absurd hNothing (ne_beforeUnit _ _ _)
    rcases beside_token hr hGaps' (by decide) (by decide) hIn with ⟨w, rfl, rfl⟩ | ⟨w, hNothing, -⟩
    · obtain ⟨e', hDepth, -, hSpaced⟩ := ih hInner
      refine ⟨.bracketed e', congrArg (· + 1) hDepth, rfl, ?_⟩
      have hSpaced := Spaced.cons (t := ['(']) hGaps
        (hSpaced.append (.cons (t := [')']) hGaps' .nil))
      simpa [Tree.tokens] using hSpaced
    · exact absurd hNothing (ne_beforeUnit _ _ _)
  | joined left op right ihLeft ihRight =>
    obtain ⟨s, _, hLeft, hJoined, hSplit⟩ := spaced_append_iff.mp h
    obtain ⟨g, s', hGaps, hRight, rfl⟩ := spaced_cons_iff.mp hJoined
    -- a connective is one character written twice, which the unit does not have
    obtain ⟨k, hOp, hk⟩ : ∃ k, op.text = [k, k] ∧ isNumberPart k = false ∧ k ∉ [' ', '<'] := by
      cases op with
      | and => exact ⟨'&', rfl, by decide⟩
      | or => exact ⟨'|', rfl, by decide⟩
    have hConnective : s ++ (g ++ k :: (k :: s')) = front ++ (beforeUnit r ++ back) := by
      simpa [hOp] using hSplit.symm
    rcases beside_token hr hGaps hk.1 hk.2 hConnective with ⟨z, rfl, rfl⟩ | ⟨z, hBehind, rfl⟩
    · obtain ⟨left', hDepth, -, hSpaced⟩ := ihLeft hLeft
      refine ⟨.joined left' op right, by rw [Tree.depth, hDepth, Tree.depth], rfl, ?_⟩
      have hSpaced := hSpaced.append (.cons (t := op.text) hGaps hRight)
      simpa [Tree.tokens, hOp] using hSpaced
    · have hSpace : ' ' ∉ [k] := fun hMem =>
        hk.2 (List.mem_singleton.mp hMem ▸ List.mem_cons_self)
      obtain ⟨w, rfl, rfl⟩ := behind_of_not_mem hSpace hBehind
      obtain ⟨right', hDepth, -, hSpaced⟩ := ihRight hRight
      refine ⟨.joined left op right', by rw [Tree.depth, hDepth, Tree.depth], rfl, ?_⟩
      have hSpaced := hLeft.append (.cons (t := op.text) hGaps hSpaced)
      simpa [Tree.tokens, hOp] using hSpaced

/-- The text in which another number stands is accepted within the same limit. -/
theorem nestedWithin_exchanged {limit : Nat} (hr : IsNumberText r) (hr' : IsNumberText r')
    (h : nestedWithin limit (front ++ (beforeUnit r ++ back)) = .ok true) :
    nestedWithin limit (front ++ (beforeUnit r' ++ back)) = .ok true := by
  obtain ⟨e, hOther, hDepth, hWriting⟩ := exists_of_nestedWithin h
  obtain ⟨m, after, hTokens, hAfter, hSplit⟩ := Tree.isWriting_iff.mp hWriting
  obtain ⟨z, rfl, rfl⟩ := ahead_of_gaps hAfter hSplit.symm
  obtain ⟨e', hDepth', hSingle', hTokens'⟩ := exists_exchanged hr hr' hTokens
  have hWriting' : e'.IsWriting (front ++ (beforeUnit r' ++ (z ++ after))) :=
    Tree.isWriting_iff.mpr ⟨_, after, hTokens', hAfter, by simp⟩
  rw [hWriting'.nestedWithin_eq (hDepth' ▸ hDepth), hSingle', hOther]
  rfl

-- ---------------------------------------------------------------------------
-- Circles
-- ---------------------------------------------------------------------------

/-- What starts with a bracket is a condition only as an expression. -/
theorem acceptsAnyWithin_bracket {limit : Nat} {e : String} (he : e.toList = '(' :: s) :
    Kind.acceptsAnyWithin limit Kind.forFilter e = nestedWithin limit ('(' :: s) := by
  obtain ⟨hFunction, hComparison⟩ := not_accepts_bracket s
  rw [Kind.acceptsAnyWithin_forFilter, he, Kind.accepts, hFunction, hComparison]
  rfl

/-- **Circles with another radius.** A circle that is accepted as a condition is accepted with any
other radius. -/
theorem circle_exchanged {limit : Nat} (latitude longitude unit : String) {radius : Binary64}
    (radius' : Binary64)
    (h : Kind.acceptsAnyWithin limit Kind.forFilter ("(" ++ latitude ++ " " ++ longitude ++ " " ++
      kilometers radius ++ " <" ++ unit ++ ">)") = .ok true) :
    Kind.acceptsAnyWithin limit Kind.forFilter ("(" ++ latitude ++ " " ++ longitude ++ " " ++
      kilometers radius' ++ " <" ++ unit ++ ">)") = .ok true := by
  have hShape (x : Binary64) : ("(" ++ latitude ++ " " ++ longitude ++ " " ++ kilometers x ++
      " <" ++ unit ++ ">)").toList = '(' :: (latitude.toList ++ ' ' :: longitude.toList ++
        (beforeUnit (kilometers x).toList ++ (unit.toList ++ ['>', ')']))) := by
    simp [beforeUnit]
  rw [acceptsAnyWithin_bracket (hShape radius), ← List.cons_append] at h
  rw [acceptsAnyWithin_bracket (hShape radius'), ← List.cons_append]
  exact nestedWithin_exchanged (isNumberText_kilometers radius) (isNumberText_kilometers radius') h

end SparqlSelect
