import SparqlSelect.Filter.Translation
import SparqlSelect.Proofs.Fragment.Kinds
import SparqlSelect.Proofs.Traced.Relation

/-!
# Conditions on a text

A clause that looks for a text puts its value, escaped, between the double quotes of a literal. So
the values of two such clauses, whatever they hold, give conditions that differ only between the
quotes of one literal. Masking does not tell them apart, and both are accepted or both rejected.

* `Interchangeable` — conditions that are related and accepted together.
* `expression_alike` — the conditions for two values.
* `translate_alike`, `translate_unplaced` — clauses that differ in their value.
-/

namespace SparqlSelect

open Pattern

/-- Conditions that are related, and are accepted or rejected together within any limit. -/
structure Interchangeable (R : String → String → Prop) (e e' : String) : Prop where
  related : R e e'
  accepted : ∀ limit,
    Kind.acceptsAnyWithin limit Kind.forFilter e = Kind.acceptsAnyWithin limit Kind.forFilter e'

theorem Interchangeable.refl {R : String → String → Prop} (hR : ∀ e, R e e) (e : String) :
    Interchangeable R e e := ⟨hR e, fun _ => rfl⟩

/-- Conditions that no one can tell apart once their literals are masked. -/
def SameMasked (e e' : String) : Prop := maskLiterals e.toList = maskLiterals e'.toList

/-- A text with a literal in double quotes. -/
def quotedIn (before body after : List Char) : List Char := before ++ '"' :: (body ++ '"' :: after)

section

variable {before after b b' x : List Char}

theorem maskLiterals_quotedIn (hBefore : before.any startsLiteral = false)
    (hb : QuotedBody b) :
    maskLiterals (quotedIn before b after) = before ++ '_' :: maskFrom 0 after := by
  rw [maskLiterals, quotedIn, maskFrom_append hBefore, maskFrom_quoted hb]

-- ---------------------------------------------------------------------------
-- Escaped values
-- ---------------------------------------------------------------------------

theorem quotedBody_escapeChar (c : Char) : QuotedBody (escapeChar c) := by
  unfold escapeChar
  split
  case h_6 hSlash hQuote hFeed hReturn _ =>
    refine .plain ?_ .nil
    simp only [Bool.and_eq_true, bne_iff_ne, ne_eq]
    exact ⟨⟨⟨hQuote, hSlash⟩, hFeed⟩, hReturn⟩
  all_goals exact .escaped (by decide) .nil

/-- Whatever a value is, its escaped text can stand between quotes. -/
theorem quotedBody_escapeText (value : Json) : QuotedBody (escapeText value).toList := by
  rw [escapeText, String.toList_ofList]
  induction value.display.toList with
  | nil => exact .nil
  | cons c s ih => exact (quotedBody_escapeChar c).append ih

-- ---------------------------------------------------------------------------
-- Calls
-- ---------------------------------------------------------------------------

theorem matches_many_chars {k : CharClass} {s : List Char} (h : ∀ c ∈ s, k.contains c = true) :
    Matches (many (chars k)) s := by
  induction s with
  | nil => exact .stop
  | cons c s ih =>
    rw [List.forall_mem_cons] at h
    have hHead : Matches (chars k) [c] := .chars h.1
    exact .more hHead (ih h.2)

/-- How a call starts: its name and the bracket that it opens. -/
def callStart : Pattern :=
  optional (char '!') ++ blanks ++ chars (Token.nameStart .letter) ++ many (chars .word) ++
    blanks ++ char '('

/-- A call on one line is a function, but for its brackets. -/
theorem accepts_call (name : List Char) {s : List Char} (hName : callStart.accepts name = true)
    (h : '\n' ∉ s) : Token.function.accepts (name ++ s ++ [')']) = true := by
  have hInner : Matches (many (chars (.outside (.one '\n')))) s := by
    refine matches_many_chars fun c hc => ?_
    have hOther : '\n' ≠ c := fun hSame => h (hSame ▸ hc)
    simp [CharClass.contains, hOther]
  exact accepts_iff.mpr (.seq (.seq (accepts_iff.mp hName) hInner) (.chars (beq_self_eq_true _)))

/-- Calls that differ in a quoted text. -/
theorem interchangeable_of_call {e e' : String} {s t : List Char}
    (hs : ("regex(".toList ++ s).any startsLiteral = false) (hsLine : '\n' ∉ s)
    (htLine : '\n' ∉ t) (hb : QuotedBody b) (hb' : QuotedBody b')
    (he : e.toList = quotedIn ("regex(".toList ++ s) b (t ++ [')']))
    (he' : e'.toList = quotedIn ("regex(".toList ++ s) b' (t ++ [')'])) :
    Interchangeable SameMasked e e' := by
  have hMasked : SameMasked e e' := by
    rw [SameMasked, he, he', maskLiterals_quotedIn hs hb, maskLiterals_quotedIn hs hb']
  -- both are calls and no comparisons, so the brackets decide, and these are counted after masking
  have hCall {body : List Char} (hBody : QuotedBody body) :
      Token.function.accepts (quotedIn ("regex(".toList ++ s) body (t ++ [')'])) = true := by
    have hLine : '\n' ∉ s ++ '"' :: (body ++ '"' :: t) := by
      simp [hsLine, htLine, hBody.newline_not_mem]
    have hAccepts := accepts_call "regex(".toList (by decide) hLine
    simpa [quotedIn] using hAccepts
  have hOther (body : List Char) :
      isComparison (quotedIn ("regex(".toList ++ s) body (t ++ [')'])) = false ∧
        ∀ limit, nestedWithin limit (quotedIn ("regex(".toList ++ s) body (t ++ [')'])) =
          .ok false := by
    obtain ⟨hSingle, -, hNested⟩ := isComparison_cons (c := 'r') (by decide) (by decide) (by decide)
      ("egex(".toList ++ s ++ '"' :: (body ++ '"' :: (t ++ [')'])))
    exact ⟨hSingle, hNested⟩
  have hBrackets : bracketsBalanced e.toList = bracketsBalanced e'.toList := by
    rw [bracketsBalanced, hMasked, bracketsBalanced]
  refine ⟨hMasked, fun limit => ?_⟩
  rw [Kind.acceptsAnyWithin_forFilter, Kind.acceptsAnyWithin_forFilter, Kind.accepts, Kind.accepts,
    hBrackets]
  rw [he, he', hCall hb, hCall hb', (hOther b).1, (hOther b').1, (hOther b).2, (hOther b').2]

-- ---------------------------------------------------------------------------
-- Comparisons
-- ---------------------------------------------------------------------------

theorem startsLiteral_var (hVar : Matches Token.var x) : x.any startsLiteral = false := by
  rw [List.any_eq_false]
  intro c hc hStarts
  simp only [startsLiteral, Bool.or_eq_true, beq_iff_eq] at hStarts
  rcases hStarts with (rfl | rfl) | rfl <;>
    exact absurd hc (not_mem_of_excludes hVar (by decide))

/-- Comparisons of a variable that differ in a quoted text. -/
theorem interchangeable_of_comparison {e e' : String} (hVar : Matches Token.var x)
    (hb : QuotedBody b) (hb' : QuotedBody b')
    (he : e.toList = quotedIn (x ++ [' ', '=', ' ']) b after)
    (he' : e'.toList = quotedIn (x ++ [' ', '=', ' ']) b' after) :
    Interchangeable SameMasked e e' := by
  have hx : (x ++ [' ', '=', ' ']).any startsLiteral = false := by
    rw [List.any_append, startsLiteral_var hVar]
    rfl
  have hMasked : SameMasked e e' := by
    rw [SameMasked, he, he', maskLiterals_quotedIn hx hb, maskLiterals_quotedIn hx hb']
  refine ⟨hMasked, fun limit => ?_⟩
  -- no function starts with the mark of a variable
  have hFunction (rest : List Char) : Token.function.accepts (x ++ rest) = false := by
    rw [Bool.eq_false_iff, ne_eq, accepts_iff]
    obtain ⟨c, t, rfl, rfl | rfl⟩ := Comparison.exists_of_matches_var hVar <;>
      exact not_matches_cons (by decide) _
  obtain ⟨hComparison, hNested⟩ := isComparison_quoted hVar hb hb' after
  simp only [Kind.acceptsAnyWithin_forFilter, Kind.accepts, he, he', quotedIn, List.append_assoc,
    hFunction, Bool.false_and, Bool.false_or, List.cons_append, List.nil_append, hComparison,
    hNested limit]

end

-- ---------------------------------------------------------------------------
-- Clauses
-- ---------------------------------------------------------------------------

/-- The kinds that put a condition on a variable. -/
def FilterKind.onVariables : List FilterKind := [contain, startMatch, regexMatch, bound, range]

/-- Whether a kind looks for the value of its clause as a text. -/
def FilterKind.looksForText (kind : FilterKind) : Bool :=
  kind == .contain || kind == .startMatch || kind == .regexMatch

section

variable {s : Settings} {kind : FilterKind} {c : Clause} {x : String}

theorem toList_literalOf (value : Json) :
    (literalOf value).toList = '"' :: ((escapeText value).toList ++ ['"']) := by
  rw [literalOf, String.toList_append, String.toList_append]
  rfl

/-- The literal of a value is a quoted text. -/
theorem matches_text_literalOf (value : Json) : Matches Token.text (literalOf value).toList := by
  rw [toList_literalOf]
  exact matches_text_iff.mpr ⟨_, quotedBody_escapeText value, rfl⟩

/-- Where the value stands in a search for it anywhere in a text. -/
theorem toList_containText (x : String) (value : Json) :
    ("regex(str(" ++ x ++ "), " ++ literalOf value ++ ", \"i\")").toList =
      quotedIn ("regex(".toList ++ ("str(".toList ++ x.toList ++ "), ".toList))
        (escapeText value).toList (", \"i\"".toList ++ [')']) := by
  simp [quotedIn, toList_literalOf]

/-- Where the value stands in a search for it at the start of a text. -/
theorem toList_startText (x : String) (value : Json) :
    ("regex(" ++ x ++ ", \"^" ++ escapeText value ++ "\")").toList =
      quotedIn ("regex(".toList ++ (x.toList ++ ", ".toList)) ('^' :: (escapeText value).toList)
        [')'] := by
  simp [quotedIn]

/-- Where the value stands in a search for what it describes. -/
theorem toList_regexText (x : String) (value : Json) :
    ("regex(" ++ x ++ ", " ++ literalOf value ++ ")").toList =
      quotedIn ("regex(".toList ++ (x.toList ++ ", ".toList)) (escapeText value).toList
        [')'] := by
  simp [quotedIn, toList_literalOf]

/-- The conditions for two values. -/
theorem expression_alike (hText : kind.looksForText = true)
    (hVar : Kind.var.accepts x.toList = true) (value : Json) (datatype : Json) :
    Alike (Option.Rel (Interchangeable SameMasked)) (Fault.raise (s.expression kind c x datatype))
      (Fault.raise (s.expression kind { c with value := value } x datatype)) := by
  have hx : Matches Token.var x.toList := accepts_iff.mp hVar
  have hName := startsLiteral_var hx
  have hLine : '\n' ∉ x.toList := not_mem_of_excludes hx (by decide)
  -- the three kinds that look for text, with the value between quotes in each of them
  cases kind with
  | contain =>
    refine .ok (.some (interchangeable_of_call ?_ ?_ (by decide) (quotedBody_escapeText c.value)
      (quotedBody_escapeText value) (toList_containText x _) (toList_containText x _)))
    · simp [hName, startsLiteral]
    · simp [hLine]
  | startMatch =>
    have hCompared (v : Json) (name : String) :
        (x ++ " = " ++ (literalOf v ++ "^^" ++ name)).toList =
          quotedIn (x.toList ++ [' ', '=', ' ']) (escapeText v).toList ("^^" ++ name).toList := by
      simp [quotedIn, toList_literalOf]
    simp only [Settings.expression, Settings.matchFragment, Settings.typedLiteral]
    cases hHolds : holdsName "string" datatype with
    | error fault => exact .failed _ _
    | ok isText =>
      cases isText with
      | true =>
        refine .ok (.some (interchangeable_of_call (t := []) ?_ ?_ List.not_mem_nil
          (.plain (by decide) (quotedBody_escapeText c.value))
          (.plain (by decide) (quotedBody_escapeText value)) (toList_startText x _)
          (toList_startText x _)))
        · simp [hName, startsLiteral]
        · simp [hLine]
      | false =>
        cases hAbbreviated : abbreviate datatype s.datatypePrefix with
        | error fault => exact .failed _ _
        | ok name =>
          exact .ok (.some (interchangeable_of_comparison hx (quotedBody_escapeText c.value)
            (quotedBody_escapeText value) (hCompared _ name) (hCompared _ name)))
  | regexMatch =>
    refine .ok (.some (interchangeable_of_call (t := []) ?_ ?_ List.not_mem_nil
      (quotedBody_escapeText c.value) (quotedBody_escapeText value) (toList_regexText x _)
      (toList_regexText x _)))
    · simp [hName, startsLiteral]
    · simp [hLine]
  | nearby | within | bound | range | aggregateFunction | temporalFunction | unsupported =>
    cases hText

/-- What a clause on a variable comes to. -/
theorem translate_onVariable (hKind : FilterKind.of c.name = .ok kind)
    (hOn : kind ∈ FilterKind.onVariables) (var datatype : Option Json) :
    s.translate c var datatype =
      match var with
      | none => Settings.passOver c "" " filter without a variable to constrain"
      | some var =>
        if kind.needsValue && c.value.isMissing then
          Settings.passOver c "" " filter without a value"
        else (Fault.raise
          (s.expression kind c var.display (datatype.getD s.defaultDatatype)) : Except _ _) := by
  obtain ⟨name, hName, rfl⟩ := map_eq_ok_iff.mp hKind
  rw [Settings.translate, Traced.liftM_raise_eq_pure hName, pure_bind]
  dsimp only
  generalize FilterKind.ofPlainName (FilterKind.plainName name) = kind at hOn
  cases kind with
  | contain | startMatch | regexMatch | bound | range => cases var <;> rfl
  | nearby | within | aggregateFunction | temporalFunction | unsupported =>
    exact absurd hOn (by decide)

/-- What a clause that looks for a text comes to. -/
theorem translate_text (hKind : FilterKind.of c.name = .ok kind)
    (hText : kind.looksForText = true) (var datatype : Option Json) :
    s.translate c var datatype =
      match var with
      | none => Settings.passOver c "" " filter without a variable to constrain"
      | some var =>
        if c.value.isMissing then Settings.passOver c "" " filter without a value"
        else (Fault.raise
          (s.expression kind c var.display (datatype.getD s.defaultDatatype)) : Except _ _) := by
  have hOn : kind ∈ FilterKind.onVariables ∧ kind.needsValue = true := by
    cases kind with
    | contain | startMatch | regexMatch => decide
    | _ => cases hText
  rw [translate_onVariable hKind hOn.1]
  simp only [hOn.2, Bool.true_and]

/-- Clauses that look for a text and differ in it, as conditions on a variable. -/
theorem translate_alike (hKind : FilterKind.of c.name = .ok kind)
    (hText : kind.looksForText = true) (hVar : Kind.var.accepts x.toList = true)
    (hGiven : c.value.isMissing = false) (value : Json) (hValue : value.isMissing = false)
    (datatype : Option Json) :
    Traced.Alike (Option.Rel (Interchangeable SameMasked))
      (s.translate c (some (.str x)) datatype)
      (s.translate { c with value := value } (some (.str x)) datatype) := by
  rw [translate_text hKind hText, translate_text (c := { c with value := value }) hKind hText]
  dsimp only
  rw [hGiven, hValue]
  exact .lift (expression_alike hText hVar value _)

/-- Without a variable the value of such a clause is not looked at. -/
theorem translate_unplaced (hKind : FilterKind.of c.name = .ok kind)
    (hText : kind.looksForText = true) (value : Json) (datatype : Option Json) :
    s.translate { c with value := value } none datatype = s.translate c none datatype := by
  rw [translate_text hKind hText, translate_text (c := { c with value := value }) hKind hText]
  rfl

end

end SparqlSelect
