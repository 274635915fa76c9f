import SparqlSelect.Proofs.Fragment.LineBreaks
import SparqlSelect.Proofs.Fragment.Sealed

/-!
# Round brackets in terms

Only of calls it is tested whether their brackets are balanced. Of the terms of a triple, variables,
names and values have no bracket outside of their literals, and those of a polygon are part of a
fixed text. Two forms are left. Each step of a path may bring an opening bracket and a closing one,
the one whether or not it brings the other, so they may come in any order. The unit of a circle may
hold any brackets, and these count if it is no IRI.

* `Shows` — the brackets that are left of the texts of a pattern when these are masked.
* `pathOf`, `matches_path_iff` — paths whose steps bring given brackets.
* `balanced_polygon`, `balanced_circle_iff` — areas.
* `term_balanced_iff` — which terms have balanced brackets.
-/

namespace SparqlSelect

open Pattern

/-- Whether a character is a round bracket. -/
def isRound (c : Char) : Bool := c == '(' || c == ')'

/-- The round brackets outside the literals of a text. -/
def roundsOf (s : List Char) : List Char := (maskFrom 0 s).filter isRound

section

variable {p q : Pattern} {s t brackets others unit front gap : List Char}

/-- Whether brackets are balanced depends on nothing but the brackets. -/
theorem closes_filter (depth : Nat) (s : List Char) :
    closes depth (s.filter isRound) = closes depth s := by
  induction s generalizing depth with
  | nil => rfl
  | cons c s ih =>
    -- brackets move the depth alike on both sides, other characters do not move it
    by_cases hOpen : c = '('
    · subst hOpen
      exact ih (depth + 1)
    by_cases hClose : c = ')'
    · subst hClose
      cases depth with
      | zero => rfl
      | succ depth => exact ih depth
    have hOther : isRound c = false := by simp [isRound, hOpen, hClose]
    rw [List.filter_cons_of_neg (by simp [hOther]), ih]
    simp [closes, hOpen, hClose]

/-- The scan for balance closes the brackets that stand outside literals. -/
theorem bracketsBalanced_eq (s : List Char) : bracketsBalanced s = closes 0 (roundsOf s) :=
  (closes_filter 0 _).symm

-- ---------------------------------------------------------------------------
-- What is left of the texts of a pattern
-- ---------------------------------------------------------------------------

/-- Whatever follows a text of the pattern, of the text itself these brackets are left when it is
masked. -/
def Shows (p : Pattern) (brackets : List Char) : Prop :=
  ∀ s, Matches p s → ∀ rest, roundsOf (s ++ rest) = brackets ++ roundsOf rest

theorem Shows.roundsOf_eq (h : Shows p brackets) (hText : Matches p s) : roundsOf s = brackets := by
  have hAll := h s hText []
  rwa [List.append_nil, show roundsOf [] = [] from rfl, List.append_nil] at hAll

/-- One text after another shows its brackets in order. -/
theorem Shows.seq (hp : Shows p brackets) (hq : Shows q others) :
    Shows (p ++ q) (brackets ++ others) := by
  intro s h rest
  obtain ⟨t, u, ht, hu, rfl⟩ := matches_seq_iff.mp h
  rw [List.append_assoc, hp t ht, hq u hu, List.append_assoc]

theorem Shows.alt (hp : Shows p brackets) (hq : Shows q brackets) : Shows (p ||| q) brackets := by
  intro s h
  exact (matches_alt_iff.mp h).elim (hp s) (hq s)

theorem shows_nothing : Shows nothing [] := by
  intro s h rest
  rw [matches_nothing_iff.mp h]
  rfl

/-- Characters that mean nothing to the masking or to the count of brackets. -/
theorem roundsOf_append_plain (h : ∀ c ∈ s, startsLiteral c = false ∧ isRound c = false)
    (rest : List Char) : roundsOf (s ++ rest) = roundsOf rest := by
  have hNone : s.any startsLiteral = false :=
    List.any_eq_false.mpr fun c hc => by simp [(h c hc).1]
  have hFilter : s.filter isRound = [] :=
    List.filter_eq_nil_iff.mpr fun c hc => by simp [(h c hc).2]
  rw [roundsOf, maskFrom_append hNone, List.filter_append, hFilter]
  rfl

/-- The characters that open literals, and the brackets. -/
def markedChars : List Char := ['"', '\'', '<', '(', ')']

/-- A pattern without a bracket, a quote or an angle shows no bracket. -/
theorem shows_plain (h : markedChars.all p.excludes = true) : Shows p [] := by
  intro s hText rest
  refine roundsOf_append_plain (fun c hc => ?_) rest
  simpa [markedChars, startsLiteral, isRound, and_assoc] using
    not_mem_of_all_excludes hText h c hc

/-- A bracket the pattern asks for is shown. -/
theorem shows_bracket {c : Char} (hc : startsLiteral c = false) (hRound : isRound c = true) :
    Shows (char c) [c] := by
  intro s h rest
  obtain rfl := eq_of_matches_word (w := [c]) h
  rw [List.singleton_append, roundsOf, maskFrom_cons hc, List.filter_cons_of_pos hRound]
  rfl

/-- The brackets inside an IRI are not shown. -/
theorem shows_iri : Shows Token.iri [] := by
  intro s h rest
  obtain ⟨b, hBody, rfl⟩ := matches_iri_iff.mp h
  have hAll : '<' :: (b ++ ['>']) ++ rest = '<' :: (b ++ '>' :: rest) := by simp
  rw [hAll, roundsOf, maskFrom_iri hBody]
  rfl

/-- The brackets inside a quoted text are not shown. -/
theorem shows_text : Shows Token.text [] := by
  intro s h rest
  obtain ⟨q, b, hQuote, hBody, rfl⟩ := matches_text_iff_quotes.mp h
  have hAll : q :: (b ++ [q]) ++ rest = q :: (b ++ q :: rest) := by simp
  rw [hAll, roundsOf, maskFrom_text hQuote hBody]
  rfl

/-- The brackets of a value are inside its literals. -/
theorem shows_native : Shows Token.native [] := by
  have hDatatype : Shows (word ['^', '^'] ++
      (Token.iri ||| Token.prefixedNameOf Token.anyCaseLetter)) [] :=
    (shows_plain (by decide)).seq (shows_iri.alt (shows_plain (by decide)))
  have hTail := (Shows.alt (p := Token.languageOf Token.anyCaseLetter) (shows_plain (by decide))
    hDatatype).alt shows_nothing
  exact (((shows_plain (by decide)).alt (shows_plain (by decide))).alt
    (shows_plain (by decide))).alt (shows_text.seq hTail)

-- ---------------------------------------------------------------------------
-- Paths
-- ---------------------------------------------------------------------------

/-- Which brackets a step of a path brings. -/
structure StepBrackets where
  opens : Bool
  closes : Bool

/-- The brackets of a step. -/
def StepBrackets.text (b : StepBrackets) : List Char :=
  (if b.opens then ['('] else []) ++ (if b.closes then [')'] else [])

/-- A text of a pattern, or nothing, as it is told. -/
def given (isThere : Bool) (p : Pattern) : Pattern := if isThere then p else nothing

/-- What a step of a path leads to. -/
def stepName : Pattern := Token.iri ||| Token.prefixedName ||| char 'a'

/-- What may stand before a step. -/
def stepMark : Pattern := optional (chars (.anyOf '^' ['!']))

/-- What may stand behind a step. -/
def stepCount : Pattern := optional (chars (.anyOf '*' ['+', '?']))

/-- One step of a path, with something in front of its name and something behind it. -/
def stepWith (opening closing : Pattern) : Pattern :=
  stepMark ++ opening ++ blanks ++ stepName ++ blanks ++ closing ++ stepCount

/-- One step of a path with given brackets. -/
def stepOf (b : StepBrackets) : Pattern :=
  stepWith (given b.opens (char '(')) (given b.closes (char ')'))

/-- What stands between the steps of a path. -/
def joint : Pattern := blanks ++ chars (.anyOf '/' ['|']) ++ blanks

/-- Further steps of a path with given brackets, each behind a joint. -/
def stepsOf : List StepBrackets → Pattern
  | [] => nothing
  | b :: steps => joint ++ stepOf b ++ stepsOf steps

/-- Paths whose steps bring these brackets. -/
def pathOf (b : StepBrackets) (steps : List StepBrackets) : Pattern := stepOf b ++ stepsOf steps

/-- A path step split into its five parts. -/
theorem matches_stepWith_iff : Matches (stepWith p q) s ↔
    ∃ mark opening name closing count, Matches stepMark mark ∧ Matches p opening ∧
      Matches (blanks ++ stepName ++ blanks) name ∧ Matches q closing ∧ Matches stepCount count ∧
      s = mark ++ (opening ++ (name ++ (closing ++ count))) := by
  constructor
  · -- taken apart from the last part to the first
    intro h
    obtain ⟨_, count, hToClose, hCount, rfl⟩ := matches_seq_iff.mp h
    obtain ⟨_, closing, hToGap, hClose, rfl⟩ := matches_seq_iff.mp hToClose
    obtain ⟨_, gap, hToName, hGap, rfl⟩ := matches_seq_iff.mp hToGap
    obtain ⟨_, name, hToLead, hName, rfl⟩ := matches_seq_iff.mp hToName
    obtain ⟨_, lead, hToOpen, hLead, rfl⟩ := matches_seq_iff.mp hToLead
    obtain ⟨mark, opening, hMark, hOpen, rfl⟩ := matches_seq_iff.mp hToOpen
    exact ⟨mark, opening, lead ++ name ++ gap, closing, count, hMark, hOpen,
      .seq (.seq hLead hName) hGap, hClose, hCount, by simp only [List.append_assoc]⟩
  · rintro ⟨mark, opening, _, closing, count, hMark, hOpen, hBetween, hClose, hCount, rfl⟩
    obtain ⟨_, gap, hToName, hGap, rfl⟩ := matches_seq_iff.mp hBetween
    obtain ⟨lead, name, hLead, hName, rfl⟩ := matches_seq_iff.mp hToName
    have hAll : Matches (stepWith p q)
        (mark ++ opening ++ lead ++ name ++ gap ++ closing ++ count) :=
      .seq (.seq (.seq (.seq (.seq (.seq hMark hOpen) hLead) hName) hGap) hClose) hCount
    simpa only [List.append_assoc] using hAll

/-- A bracket that may be missing is there or not: the choice becomes data. -/
theorem matches_optional_iff : Matches (optional p) s ↔ ∃ b, Matches (given b p) s := by
  constructor
  · intro h
    exact (matches_alt_iff.mp h).elim (fun h => ⟨true, h⟩) fun h => ⟨false, h⟩
  · rintro ⟨_ | _, h⟩
    · exact .right h
    · exact .left h

/-- A path step has some choice of its two brackets. -/
theorem matches_pathStep_iff : Matches Token.pathStep s ↔ ∃ b, Matches (stepOf b) s := by
  change Matches (stepWith (optional (char '(')) (optional (char ')'))) s ↔ _
  simp only [stepOf, matches_stepWith_iff, matches_optional_iff]
  constructor
  · rintro ⟨mark, opening, name, closing, count, hMark, ⟨opens, hOpen⟩, hName, ⟨closes, hClose⟩, h⟩
    exact ⟨⟨opens, closes⟩, mark, opening, name, closing, count, hMark, hOpen, hName, hClose, h⟩
  · rintro ⟨b, mark, opening, name, closing, count, hMark, hOpen, hName, hClose, h⟩
    exact ⟨mark, opening, name, closing, count, hMark, ⟨_, hOpen⟩, hName, ⟨_, hClose⟩, h⟩

/-- A list of path steps has a choice for each of them. -/
theorem matches_steps_iff :
    Matches (many (joint ++ Token.pathStep)) s ↔ ∃ steps, Matches (stepsOf steps) s := by
  constructor
  · -- each repetition is one step, whose brackets are chosen with it
    refine matches_many_induction (P := fun s => ∃ steps, Matches (stepsOf steps) s)
      ⟨[], .nothing⟩ ?_
    rintro t u hStep - ⟨steps, hSteps⟩
    obtain ⟨between, step, hJoint, hName, rfl⟩ := matches_seq_iff.mp hStep
    obtain ⟨b, hName⟩ := matches_pathStep_iff.mp hName
    exact ⟨b :: steps, .seq (.seq hJoint hName) hSteps⟩
  · rintro ⟨steps, h⟩
    induction steps generalizing s with
    | nil =>
      rw [matches_nothing_iff.mp h]
      exact .stop
    | cons b steps ih =>
      obtain ⟨_, rest, hFirst, hRest, rfl⟩ := matches_seq_iff.mp h
      obtain ⟨between, step, hJoint, hStep, rfl⟩ := matches_seq_iff.mp hFirst
      exact .more (.seq hJoint (matches_pathStep_iff.mpr ⟨b, hStep⟩)) (ih hRest)

/-- A path is one or more steps, each with the brackets that it brings. -/
theorem matches_path_iff : Matches Token.path s ↔ ∃ b steps, Matches (pathOf b steps) s := by
  constructor
  · intro h
    obtain ⟨t, u, hFirst, hRest, rfl⟩ := matches_seq_iff.mp h
    obtain ⟨b, hFirst⟩ := matches_pathStep_iff.mp hFirst
    obtain ⟨steps, hRest⟩ := matches_steps_iff.mp hRest
    exact ⟨b, steps, .seq hFirst hRest⟩
  · rintro ⟨b, steps, h⟩
    obtain ⟨t, u, hFirst, hRest, rfl⟩ := matches_seq_iff.mp h
    exact .seq (matches_pathStep_iff.mpr ⟨b, hFirst⟩) (matches_steps_iff.mpr ⟨steps, hRest⟩)

theorem shows_given {c : Char} (isThere : Bool) (hc : startsLiteral c = false)
    (hRound : isRound c = true) :
    Shows (given isThere (char c)) (if isThere then [c] else []) := by
  cases isThere with
  | true => exact shows_bracket hc hRound
  | false => exact shows_nothing

/-- With the choice made, a step shows exactly the brackets it has. -/
theorem shows_stepOf (b : StepBrackets) : Shows (stepOf b) b.text := by
  have hName : Shows stepName [] :=
    (shows_iri.alt (shows_plain (by decide))).alt (shows_plain (by decide))
  have hBlanks : Shows blanks [] := shows_plain (by decide)
  have hAll : Shows (stepOf b) ([] ++ (if b.opens then ['('] else []) ++ [] ++ [] ++ [] ++
      (if b.closes then [')'] else []) ++ []) :=
    ((((((shows_plain (by decide)).seq (shows_given _ rfl rfl)).seq hBlanks).seq hName).seq
      hBlanks).seq (shows_given _ rfl rfl)).seq (shows_plain (by decide))
  simpa only [List.nil_append, List.append_nil, StepBrackets.text] using hAll

theorem shows_stepsOf (steps : List StepBrackets) :
    Shows (stepsOf steps) (steps.flatMap StepBrackets.text) := by
  have hJoint : Shows joint [] := shows_plain (by decide)
  induction steps with
  | nil => exact shows_nothing
  | cons b steps ih =>
    rw [List.flatMap_cons]
    exact (hJoint.seq (shows_stepOf b)).seq ih

/-- Of a path the brackets of its steps are left. -/
theorem shows_pathOf (b : StepBrackets) (steps : List StepBrackets) :
    Shows (pathOf b steps) ((b :: steps).flatMap StepBrackets.text) := by
  rw [List.flatMap_cons]
  exact (shows_stepOf b).seq (shows_stepsOf steps)

/-- A path is balanced if the brackets of its steps are, however it is divided into steps. -/
theorem balanced_path_iff (h : Matches Token.path s) :
    bracketsBalanced s = true ↔ ∀ b steps, Matches (pathOf b steps) s →
      closes 0 ((b :: steps).flatMap StepBrackets.text) = true := by
  rw [bracketsBalanced_eq]
  constructor
  · intro hBalanced b steps hText
    rwa [← (shows_pathOf b steps).roundsOf_eq hText]
  · intro hAll
    obtain ⟨b, steps, hText⟩ := matches_path_iff.mp h
    rw [(shows_pathOf b steps).roundsOf_eq hText]
    exact hAll b steps hText

-- ---------------------------------------------------------------------------
-- Areas
-- ---------------------------------------------------------------------------

/-- The brackets of a polygon are masked with the rest of a quoted text, or, if a line break stands
in it, counted with the rest. -/
theorem balanced_polygon (h : Matches Token.polygon s) : bracketsBalanced s = true := by
  obtain ⟨inner, hInner, rfl⟩ := matches_polygon_iff_inner.mp h
  have hPlain := plain_of_polygonBody hInner
  rw [polygonText_eq, bracketsBalanced_eq]
  -- a line break in the body makes it no literal, so its four brackets are shown and close each
  -- other; otherwise the body is masked with all that is in it
  by_cases hBreak : ∃ c ∈ polygonBody inner, isLineBreak c = true
  · have hNone : (Token.text ||| Token.iri).matchLength?
        ('"' :: (polygonBody inner ++ '"' :: polygonDatatype)) = none := by
      refine matchLength?_eq_none_iff.mpr fun u v hSplit hu => ?_
      cases u with
      | nil => exact absurd (acceptsEmpty_iff.mpr hu) (by decide)
      | cons c u =>
        obtain ⟨rfl, hRest⟩ := List.cons.inj hSplit
        rcases matches_alt_iff.mp hu with hText | hIri
        · exact not_text_over_break (u := []) List.not_mem_nil
            (fun c hc => ⟨(hPlain c hc).1, (hPlain c hc).2.2⟩) hBreak hRest hText
        · exact not_matches_cons (following_iri (by decide)) u hIri
    have hStays : (polygonBody inner).any startsLiteral = false :=
      List.any_eq_false.mpr fun c hc => by
        have hQuote := (hPlain c hc).1
        simp only [isQuote] at hQuote
        simp [startsLiteral, hQuote, (hPlain c hc).2.1]
    have hBody : (polygonBody inner).filter isRound = ['(', '(', ')', ')'] := by
      have hPoints : inner.filter isRound = [] := by
        refine List.filter_eq_nil_iff.mpr fun c hc hRound => ?_
        have hExcludes : (['(', ')'].all polygonInner.excludes) = true := by decide
        exact not_mem_of_all_excludes hInner hExcludes c hc (by simpa [isRound] using hRound)
      rw [polygonBody, List.filter_append, List.filter_append, hPoints]
      decide
    have hTail : (maskFrom 0 ('"' :: polygonDatatype)).filter isRound = [] := by
      decide +kernel
    rw [roundsOf, maskFrom, hNone, List.filter_cons_of_neg (by decide), maskFrom_append hStays,
      List.filter_append, hBody, hTail]
    rfl
  · have hBody : QuotedBody (polygonBody inner) := by
      refine quotedBody_of_plain fun c hc => ?_
      have hNoBreak : isLineBreak c = false := by
        rw [Bool.eq_false_iff]
        exact fun h => hBreak ⟨c, hc, h⟩
      have hPlain := hPlain c hc
      simp only [isLineBreak, isQuote, Bool.or_eq_false_iff, beq_eq_false_iff_ne] at hNoBreak hPlain
      simp [quoteBreaks, hNoBreak, hPlain]
    have hTail : (maskFrom 0 polygonDatatype).filter isRound = [] := by decide +kernel
    rw [roundsOf, maskFrom_quoted hBody, List.filter_cons_of_neg (by decide), hTail]
    rfl

/-- A literal ends in a quote or in an angle bracket. -/
theorem exists_of_literal (h : Matches (Token.text ||| Token.iri) s) :
    ∃ t e, s = t ++ [e] ∧ (isQuote e = true ∨ e = '>') := by
  rcases matches_alt_iff.mp h with hText | hIri
  · obtain ⟨q, b, hQuote, -, rfl⟩ := matches_text_iff_quotes.mp hText
    exact ⟨q :: b, q, rfl, .inl hQuote⟩
  · obtain ⟨b, -, rfl⟩ := matches_iri_iff.mp hIri
    exact ⟨'<' :: b, '>', rfl, .inr rfl⟩

/-- No literal ends in what holds neither quotes nor closing angle brackets. -/
theorem matchLength?_literal_append (h : ∀ c ∈ t, isQuote c = false ∧ c ≠ '>') (s : List Char) :
    (Token.text ||| Token.iri).matchLength? (s ++ t) =
      (Token.text ||| Token.iri).matchLength? s := by
  refine matchLength?_append fun u v hSplit hu => ?_
  obtain ⟨w, e, rfl, he⟩ := exists_of_literal hu
  have hNone : e ∉ t := by
    intro hMem
    rcases he with hQuote | rfl
    · rw [(h e hMem).1] at hQuote
      cases hQuote
    · exact (h _ hMem).2 rfl
  obtain ⟨v', rfl, -⟩ := before_of_not_mem hNone (by simpa using hSplit)
  exact ⟨v', by simp⟩

/-- The unit of a circle is masked apart from what stands around it. -/
theorem balanced_circle_iff (hFront : Matches circleFront front) (hGap : Matches blanks gap) :
    bracketsBalanced (front ++ '<' :: (unit ++ '>' :: (gap ++ [')']))) =
      closes 1 (maskLiterals ('<' :: (unit ++ ['>'])) ++ [')']) := by
  -- the unit is the one part whose brackets are not known, so the mask is split around it
  have hParts : front ++ '<' :: (unit ++ '>' :: (gap ++ [')'])) =
      front ++ ('<' :: (unit ++ ['>']) ++ (gap ++ [')'])) := by simp
  have hShowsFront : Shows circleFront ['('] := by
    have hBlanks : Shows someBlanks [] := shows_plain (by decide)
    have hNumber : Shows Token.coordinate [] := shows_plain (by decide)
    exact (((((((shows_bracket rfl rfl).seq (shows_plain (by decide))).seq hNumber).seq
      hBlanks).seq hNumber).seq hBlanks).seq hNumber).seq hBlanks
  have hShowsEnd : Shows (blanks ++ char ')') [')'] :=
    (shows_plain (by decide)).seq (shows_bracket rfl rfl)
  have hEnd : Matches (blanks ++ char ')') (gap ++ [')']) := .seq hGap (.chars rfl)
  have hNone : ∀ c ∈ gap ++ [')'], isQuote c = false ∧ c ≠ '>' := by
    have hExcludes : (['"', '\'', '>'].all (blanks ++ char ')').excludes) = true := by decide
    exact fun c hc => by
      simpa [isQuote, and_assoc] using not_mem_of_all_excludes hEnd hExcludes c hc
  rw [bracketsBalanced_eq, hParts, hShowsFront front hFront, roundsOf,
    maskFrom_append_of_same fun c t => matchLength?_literal_append hNone (c :: t),
    List.filter_append,
    ← closes_filter 1, List.filter_append]
  change closes 1 (_ ++ roundsOf (gap ++ [')'])) = _
  rw [hShowsEnd.roundsOf_eq hEnd]
  rfl

/-- A text whose pattern shows no bracket is balanced. -/
theorem balanced_of_shows (h : Shows p []) (hText : Matches p s) : bracketsBalanced s = true := by
  rw [bracketsBalanced_eq, h.roundsOf_eq hText]
  rfl

/-- Variables and names have no brackets outside of literals. -/
theorem shows_name : Shows (Token.var ||| Token.iri ||| Token.prefixedName) [] :=
  ((shows_plain (by decide)).alt shows_iri).alt (shows_plain (by decide))

end

-- ---------------------------------------------------------------------------
-- Terms
-- ---------------------------------------------------------------------------

/-- **Which terms have balanced brackets.** Subjects always do. A predicate does if the brackets
that its steps bring are balanced, should it be a path. An object does if those in its unit are,
with one bracket open before it and closed behind it, should it be a circle. -/
theorem term_balanced_iff (v : String) :
    (Kind.acceptsAny Kind.forSubject v = true → bracketsBalanced v.toList = true) ∧
    (Kind.acceptsAny Kind.forPredicate v = true →
      (bracketsBalanced v.toList = true ↔ ∀ b steps, Matches (pathOf b steps) v.toList →
        closes 0 ((b :: steps).flatMap StepBrackets.text) = true)) ∧
    (Kind.acceptsAny Kind.forObject v = true →
      (bracketsBalanced v.toList = true ↔ ∀ front unit gap, Matches circleFront front →
        Matches unitPattern unit → Matches blanks gap →
        v.toList = front ++ '<' :: (unit ++ '>' :: (gap ++ [')'])) →
        closes 1 (maskLiterals ('<' :: (unit ++ ['>'])) ++ [')']) = true)) := by
  refine ⟨fun h => balanced_of_shows shows_name (Kind.matches_of_subject h), fun h => ?_,
    fun h => ⟨fun hBalanced front unit gap hFront _ hGap hSplit => ?_, fun hCircle => ?_⟩⟩
  · -- a predicate is a path, whose brackets are told by its steps, or a name
    by_cases hPath : Matches Token.path v.toList
    · exact balanced_path_iff hPath
    · have hName : Matches (Token.var ||| Token.iri ||| Token.prefixedName) v.toList :=
        (matches_alt_iff.mp (Kind.matches_of_predicate h)).resolve_right hPath
      refine ⟨fun _ b steps hText => absurd (matches_path_iff.mpr ⟨b, steps, hText⟩) hPath,
        fun _ => balanced_of_shows shows_name hName⟩
  · rwa [hSplit, balanced_circle_iff hFront hGap] at hBalanced
  · -- of the objects only a circle has brackets that need not close
    rcases Kind.acceptsAny_forObject_iff.mp h with
      hVar | hIri | hName | hNative | hArea | hPolygon
    · exact balanced_of_shows shows_name (.left (.left hVar))
    · exact balanced_of_shows shows_name (.left (.right hIri))
    · exact balanced_of_shows shows_name (.right hName)
    · exact balanced_of_shows shows_native hNative
    · obtain ⟨front, unit, gap, hFront, hUnit, hGap, hSplit⟩ := exists_of_matches_circle hArea
      rw [hSplit, balanced_circle_iff hFront hGap]
      exact hCircle front unit gap hFront hUnit hGap hSplit
    · exact balanced_polygon hPolygon

/-- Brackets around two steps of a path, each step bringing one of them. -/
theorem balanced_around_steps : bracketsBalanced "(geo:a/geo:b)*".toList = true ∧
    ∀ b steps, Matches (pathOf b steps) "(geo:a/geo:b)*".toList →
      closes 0 ((b :: steps).flatMap StepBrackets.text) = true := by
  have hAccepted : Kind.acceptsAny Kind.forPredicate "(geo:a/geo:b)*" = true := by decide +kernel
  have hBalanced : bracketsBalanced "(geo:a/geo:b)*".toList = true := by decide +kernel
  exact ⟨hBalanced, ((term_balanced_iff "(geo:a/geo:b)*").2.1 hAccepted).mp hBalanced⟩

/-- A predicate and an object that are accepted, the one with a bracket that is not closed, the
other with such a bracket in the unit of a circle. -/
theorem term_unbalanced :
    Kind.acceptsAny Kind.forPredicate "(x:p" = true ∧ bracketsBalanced "(x:p".toList = false ∧
    Kind.acceptsAny Kind.forObject "(1 2 3 <a^(b>)" = true ∧
    bracketsBalanced "(1 2 3 <a^(b>)".toList = false := by
  decide +kernel

end SparqlSelect
