import SparqlSelect.Proofs.Filter.Conditions
import SparqlSelect.Proofs.Filter.Ordering
import SparqlSelect.Proofs.Fragment.Brackets
import SparqlSelect.Proofs.Fragment.Grammar

/-!
# What clauses on a variable give is accepted

A clause on a variable gives a call or a comparison. A call is on one line, since the value in it is
escaped, and its brackets are balanced, since those of the value are masked. A comparison is the
writing of a tree, and so is whatever comparisons are merged to. None of these trees is deeper than
one bracket, which any limit lets the reader go into, and how long they are makes no difference to
it.

* `accepted_of_regex`, `accepted_of_bound` — calls with any value in them.
* `Writes`, `Writes.accepted` — writings of trees.
* `Clause.Constrains` — the clauses this is about.
* `expression_accepted` — every such clause gives a fragment that is accepted.
* `mergedExpression_accepted` — and so is the expression that its bounds are merged to.
-/

namespace SparqlSelect

open Pattern Comparison

-- ---------------------------------------------------------------------------
-- Calls
-- ---------------------------------------------------------------------------

section

variable {limit : Nat} {x body s t : List Char} {e : String}

/-- Text without brackets can be left out before brackets are counted. -/
theorem closes_insert (hOpen : '(' ∉ x) (hClose : ')' ∉ x) (depth : Nat) (s t : List Char) :
    closes depth (s ++ (x ++ t)) = closes depth (s ++ t) := by
  have hNone : x.filter isRound = [] := by
    refine List.filter_eq_nil_iff.mpr fun c hc hRound => ?_
    rcases Bool.or_eq_true_iff.mp hRound with h | h
    · exact hOpen (beq_iff_eq.mp h ▸ hc)
    · exact hClose (beq_iff_eq.mp h ▸ hc)
  rw [← closes_filter, List.filter_append, List.filter_append, hNone, List.nil_append,
    ← List.filter_append, closes_filter]

theorem not_bracket_of_var (hVar : Matches Token.var x) : '(' ∉ x ∧ ')' ∉ x :=
  ⟨not_mem_of_excludes hVar (by decide), not_mem_of_excludes hVar (by decide)⟩

theorem accepted_of_function (hCall : Token.function.accepts e.toList = true)
    (hBalanced : bracketsBalanced e.toList = true) :
    Kind.acceptsAnyWithin limit Kind.forFilter e = .ok true := by
  simp [Kind.acceptsAnyWithin_forFilter, Kind.accepts, hCall, hBalanced]

/-- A test of a variable against a quoted text is accepted, whatever the text is. -/
theorem accepted_of_regex (pre mid after : List Char) (hVar : Matches Token.var x)
    (hBody : QuotedBody body)
    (hLiterals : ("regex(".toList ++ pre ++ mid).any startsLiteral = false)
    (hLine : '\n' ∉ pre ++ mid ++ after)
    (hBalanced : closes 0 ("regex(".toList ++ pre ++
      (mid ++ '_' :: maskFrom 0 (after ++ [')']))) = true)
    (he : e.toList = quotedIn ("regex(".toList ++ (pre ++ (x ++ mid))) body (after ++ [')'])) :
    Kind.acceptsAnyWithin limit Kind.forFilter e = .ok true := by
  simp only [List.mem_append, not_or] at hLine
  obtain ⟨⟨hPre, hMid⟩, hAfter⟩ := hLine
  rw [← List.append_assoc] at he
  refine accepted_of_function ?_ ?_
  · -- the text has the form of a call, and its brackets are balanced behind the mask
    have hInner : '\n' ∉ pre ++ (x ++ mid) ++ '"' :: (body ++ '"' :: after) := by
      simp [hPre, hMid, hAfter, hBody.newline_not_mem,
        not_mem_of_excludes (d := '\n') hVar (by decide)]
    have hCall := accepts_call "regex(".toList (by decide) hInner
    rw [he]
    simpa [quotedIn] using hCall
  · have hBefore : ("regex(".toList ++ pre ++ (x ++ mid)).any startsLiteral = false := by
      simp only [List.any_append, Bool.or_eq_false_iff] at hLiterals ⊢
      exact ⟨hLiterals.1, startsLiteral_var hVar, hLiterals.2⟩
    obtain ⟨hOpen, hClose⟩ := not_bracket_of_var hVar
    have hAround (rest : List Char) : "regex(".toList ++ pre ++ (x ++ mid) ++ rest =
        "regex(".toList ++ pre ++ (x ++ (mid ++ rest)) := by simp only [List.append_assoc]
    rw [bracketsBalanced, he, maskLiterals_quotedIn hBefore hBody, hAround,
      closes_insert hOpen hClose]
    exact hBalanced

/-- A test whether a variable is bound is accepted. -/
theorem accepted_of_bound (name : List Char) (hVar : Matches Token.var x)
    (hName : callStart.accepts name = true) (hLiterals : name.any startsLiteral = false)
    (hBalanced : closes 0 (name ++ [')']) = true) (he : e.toList = name ++ (x ++ [')'])) :
    Kind.acceptsAnyWithin limit Kind.forFilter e = .ok true := by
  refine accepted_of_function ?_ ?_
  · -- the form of a call, then its brackets: the variable has none of its own
    have hCall := accepts_call name hName (not_mem_of_excludes hVar (d := '\n') (by decide))
    rw [he]
    simpa using hCall
  · have hPlain : (name ++ (x ++ [')'])).any startsLiteral = false := by
      rw [List.any_append, List.any_append, hLiterals, startsLiteral_var hVar]
      rfl
    have hMasked := maskFrom_append hPlain []
    obtain ⟨hOpen, hClose⟩ := not_bracket_of_var hVar
    rw [List.append_nil, maskFrom, List.append_nil] at hMasked
    rw [bracketsBalanced, he, maskLiterals, hMasked, closes_insert hOpen hClose]
    exact hBalanced

end

-- ---------------------------------------------------------------------------
-- Writings of trees
-- ---------------------------------------------------------------------------

namespace Comparison

/-- The text writes a condition made of comparisons, at most so many brackets deep. -/
def Writes (depth : Nat) (e : String) : Prop :=
  ∃ tree : Tree, tree.depth ≤ depth ∧ tree.IsWriting e.toList

variable {limit n m : Nat} {e e' : String}

/-- What is not too deep is accepted, as a comparison or as an expression of another kind. -/
theorem Writes.accepted (h : Writes n e) (hDepth : n ≤ limit + 1) :
    Kind.acceptsAnyWithin limit Kind.forFilter e = .ok true := by
  obtain ⟨tree, hTree, hWriting⟩ := h
  rw [Kind.acceptsAnyWithin_forFilter, hWriting.isComparison_eq,
    hWriting.nestedWithin_eq (Nat.le_trans hTree hDepth)]
  cases tree.isSingle <;> simp

theorem Writes.mono (h : Writes n e) (hDepth : n ≤ m) : Writes m e := by
  obtain ⟨tree, hTree, hWriting⟩ := h
  exact ⟨tree, Nat.le_trans hTree hDepth, hWriting⟩

/-- Two conditions are joined by a connective between spaces. -/
theorem Writes.join (h : Writes n e) (h' : Writes n e') (op : Connective) (joined : String)
    (hJoined : joined.toList = e.toList ++ ' ' :: (op.text ++ ' ' :: e'.toList)) :
    Writes n joined := by
  obtain ⟨left, hLeft, hWriting⟩ := h
  obtain ⟨right, hRight, hWriting'⟩ := h'
  exact ⟨.joined left op right, Nat.max_le.mpr ⟨hLeft, hRight⟩,
    hJoined ▸ hWriting.join hWriting' op⟩

theorem Writes.bracket (h : Writes n e) {bracketed : String}
    (hBracketed : bracketed.toList = '(' :: (e.toList ++ [')'])) : Writes (n + 1) bracketed := by
  obtain ⟨tree, hTree, hWriting⟩ := h
  exact ⟨.bracketed tree, Nat.succ_le_succ hTree, hBracketed ▸ hWriting.bracket⟩

/-- A comparison is written with spaces around its operator. -/
theorem isWriting_comparison (c : Single)
    (he : e.toList = c.var ++ ' ' :: (c.operator.text ++ ' ' :: c.value)) :
    (Tree.comparison c).IsWriting e.toList := by
  refine ⟨[], c.var ++ ([' '] ++ (c.operator.text ++ ([' '] ++ c.value))), [], gaps_nil,
    .next c.var gaps_space (.next c.operator.text gaps_space (.last c.value)), gaps_nil, ?_⟩
  rw [he]
  simp

/-- A variable compared with a value, with spaces around the operator. -/
theorem writes_comparison {x v : List Char} (hVar : Matches Token.var x)
    (hValue : Matches comparedValue v) (op : Operator)
    (he : e.toList = x ++ ' ' :: (op.text ++ ' ' :: v)) : Writes 0 e :=
  ⟨_, Nat.le_refl _, isWriting_comparison ⟨x, op, v, hVar, hValue⟩ he⟩

end Comparison

-- ---------------------------------------------------------------------------
-- Clauses
-- ---------------------------------------------------------------------------

/-- The symbols that compare. -/
def comparisonSymbols : List String := ["<", "<=", ">", ">=", "=", "!="]

/-- A clause that puts a condition on a variable: its value may be anything but an integer that is
too large for a double. -/
structure Clause.Constrains (c : Clause) : Prop where
  kind : ∃ kind ∈ FilterKind.onVariables, FilterKind.of c.name = .ok kind
  comparison : FilterKind.of c.name = .ok .range →
    comparisonSymbol c.comparison ∈ comparisonSymbols
  inRange : c.value.toDouble ≠ .error .tooLarge

/-- A datatype is written as a prefixed name. -/
def Settings.Abbreviates (s : Settings) (datatype : Json) : Prop :=
  ∃ name, abbreviate datatype s.datatypePrefix = .ok name ∧
    Kind.prefixedName.accepts name.toList = true

section

variable {limit : Nat} {s : Settings} {kind : FilterKind} {c : Clause} {x : String}
  {datatype : Json}

theorem exists_symbol {symbol : String} (h : symbol ∈ comparisonSymbols) :
    ∃ op : Operator, op.text = symbol.toList := by
  simp only [comparisonSymbols, List.mem_cons, List.not_mem_nil, or_false] at h
  rcases h with rfl | rfl | rfl | rfl | rfl | rfl
  · exact ⟨.less, rfl⟩
  · exact ⟨.atMost, rfl⟩
  · exact ⟨.greater, rfl⟩
  · exact ⟨.atLeast, rfl⟩
  · exact ⟨.equal, rfl⟩
  · exact ⟨.unequal, rfl⟩

/-- Any value can be compared with, once it is escaped and has the name of a datatype. -/
theorem typedLiteral_compared (hDatatype : s.Abbreviates datatype) (value : Json) :
    ∃ literal, s.typedLiteral value datatype = .ok literal ∧
      Matches comparedValue literal.toList := by
  obtain ⟨name, hName, hPrefixed⟩ := hDatatype
  refine ⟨literalOf value ++ "^^" ++ name, by rw [Settings.typedLiteral, hName]; rfl, .left ?_⟩
  have hMark : Matches (word ['^', '^']) ['^', '^'] := accepts_iff.mp (by decide)
  have hTail : Matches datatypeTail ([] ++ ['^', '^'] ++ [] ++ name.toList) :=
    .seq (.seq (.seq .stop hMark) .stop) (.right (accepts_iff.mp hPrefixed))
  refine matches_typedText_iff.mpr ⟨_, _, matches_text_literalOf value, hTail, ?_⟩
  simp

/-- What a clause compares a variable with is a comparison. -/
theorem writes_literal (hVar : Matches Token.var x.toList) (hDatatype : s.Abbreviates datatype)
    (value : Json) (symbol : String) (hSymbol : symbol ∈ comparisonSymbols) :
    ∃ literal, s.typedLiteral value datatype = .ok literal ∧
      Writes 0 (x ++ " " ++ symbol ++ " " ++ literal) := by
  obtain ⟨literal, hLiteral, hValue⟩ := typedLiteral_compared hDatatype value
  obtain ⟨op, hop⟩ := exists_symbol hSymbol
  refine ⟨literal, hLiteral, writes_comparison hVar hValue op ?_⟩
  simp [hop]

/-- What a match comes to, a search in a text or a comparison, is accepted. -/
theorem matchFragment_accepted (hVar : Matches Token.var x.toList)
    (hDatatype : s.Abbreviates datatype) (value : Json) :
    ∃ e, s.matchFragment x value datatype = .ok e ∧
      Kind.acceptsAnyWithin limit Kind.forFilter e = .ok true := by
  -- only a text can be abbreviated
  obtain ⟨iri, rfl⟩ : ∃ iri, datatype = .str iri := by
    obtain ⟨name, hName, -⟩ := hDatatype
    cases datatype with
    | str iri => exact ⟨iri, rfl⟩
    | _ => cases hName
  rw [Settings.matchFragment, holdsName]
  -- texts are matched by a regular expression, other values compared by equality
  cases occursIn "string".toList iri.toList with
  | true =>
    refine ⟨_, rfl, ?_⟩
    exact accepted_of_regex [] ", ".toList [] hVar
      (.plain (c := '^') (by decide) (quotedBody_escapeText value)) (by decide) (by decide)
      (by decide +kernel) (toList_startText x _)
  | false =>
    obtain ⟨literal, hLiteral, hWrites⟩ := writes_literal hVar hDatatype value "=" (by decide)
    have hText : x ++ " = " ++ literal = x ++ " " ++ "=" ++ " " ++ literal := by
      apply String.toList_injective
      simp
    refine ⟨x ++ " = " ++ literal, by simp [hLiteral, bind, Except.bind], ?_⟩
    rw [hText]
    exact hWrites.accepted (Nat.zero_le _)

/-- A clause that puts a condition on a variable gives one, and a bound gives a comparison. -/
theorem expression_accepted (hKind : kind ∈ FilterKind.onVariables)
    (hVar : Matches Token.var x.toList) (hDatatype : s.Abbreviates datatype)
    (hComparison : kind = .range → comparisonSymbol c.comparison ∈ comparisonSymbols) :
    ∃ e, s.expression kind c x datatype = .ok (some e) ∧
      Kind.acceptsAnyWithin limit Kind.forFilter e = .ok true ∧ (kind = .range → Writes 0 e) := by
  have hBody := quotedBody_escapeText c.value
  -- each kind writes one of three forms: a call, a test for a binding, a comparison
  cases kind with
  | contain =>
    refine ⟨_, rfl, ?_, by simp⟩
    exact accepted_of_regex "str(".toList "), ".toList ", \"i\"".toList hVar hBody (by decide)
      (by decide) (by decide +kernel) (toList_containText x _)
  | startMatch =>
    obtain ⟨e, hMatch, hAccepted⟩ := matchFragment_accepted hVar hDatatype c.value
    exact ⟨e, by rw [Settings.expression, hMatch]; rfl, hAccepted, by simp⟩
  | regexMatch =>
    refine ⟨_, rfl, ?_, by simp⟩
    exact accepted_of_regex [] ", ".toList [] hVar hBody (by decide) (by decide)
      (by decide +kernel) (toList_regexText x _)
  | bound =>
    refine ⟨_, rfl, ?_, by simp⟩
    split
    · refine accepted_of_bound "!BOUND(".toList hVar (by decide) (by decide) (by decide) ?_
      simp
    · refine accepted_of_bound "BOUND(".toList hVar (by decide) (by decide) (by decide) ?_
      simp
  | range =>
    obtain ⟨literal, hLiteral, hWrites⟩ :=
      writes_literal hVar hDatatype c.value _ (hComparison rfl)
    refine ⟨x ++ " " ++ comparisonSymbol c.comparison ++ " " ++ literal, ?_,
      hWrites.accepted (Nat.zero_le _), fun _ => hWrites⟩
    rw [Settings.expression, hLiteral]
    rfl
  | nearby | within | aggregateFunction | temporalFunction | unsupported =>
    exact absurd hKind (by decide)

/-- A clause that puts a condition on a variable is translated, to a condition that is accepted or
to none. -/
theorem Clause.Constrains.translate (h : c.Constrains) (hVar : Matches Token.var x.toList)
    {datatype : Option Json} (hDatatype : s.Abbreviates (datatype.getD s.defaultDatatype)) :
    ∃ found, (s.translate c (some (.str x)) datatype).outcome = .ok found ∧
      (∀ e ∈ found, Kind.acceptsAnyWithin limit Kind.forFilter e = .ok true) ∧
      (FilterKind.of c.name = .ok .range → ∀ e ∈ found, Writes 0 e) := by
  obtain ⟨kind, hKind, hName⟩ := h.kind
  rw [translate_onVariable hName hKind]
  dsimp only
  -- nothing is found for a value that is missing
  split
  · exact ⟨none, rfl, nofun, fun _ => nofun⟩
  · obtain ⟨e, hExpression, hAccepted, hWrites⟩ := expression_accepted (c := c) hKind hVar hDatatype
      (fun hRange => h.comparison (hRange ▸ hName))
    refine ⟨some e, raise_eq_ok_iff.mpr hExpression, ?_, ?_⟩
    · rintro _ ⟨⟩
      exact hAccepted
    · rintro hRange _ ⟨⟩
      rw [hName] at hRange
      exact hWrites (Except.ok.inj hRange)

end

-- ---------------------------------------------------------------------------
-- Bounds
-- ---------------------------------------------------------------------------

/-- A bound that can be compared with others and was given by a comparison. -/
structure Bound.IsComparable (b : Bound) : Prop where
  inRange : b.value.isInRange = true
  writes : Writes 0 b.fragment

section

variable {limit n : Nat} {lowers uppers bounds : List Bound}

theorem pairBounds_writes (hLowers : ∀ b ∈ lowers, b.IsComparable)
    (hUppers : ∀ b ∈ uppers, b.IsComparable) :
    ∃ parts, pairBounds lowers uppers = .ok parts ∧ ∀ p ∈ parts, Writes 1 p := by
  induction lowers, uppers using pairBounds.induct with
  | case1 uppers =>
    exact ⟨_, rfl, List.forall_mem_map.mpr fun b hb => (hUppers b hb).writes.mono (by decide)⟩
  | case2 lowers hSome =>
    refine ⟨lowers.map (·.fragment), ?_,
      List.forall_mem_map.mpr fun b hb => (hLowers b hb).writes.mono (by decide)⟩
    rw [pairBounds]
    exact hSome
  | case3 lower lowers upper uppers ih =>
    obtain ⟨hLower, hLowers⟩ := List.forall_mem_cons.mp hLowers
    obtain ⟨hUpper, hUppers⟩ := List.forall_mem_cons.mp hUppers
    obtain ⟨others, hOthers, hWrites⟩ := ih hLowers hUppers
    obtain ⟨above, hAbove⟩ := exists_exceeds_iff.mpr ⟨hUpper.inRange, hLower.inRange⟩
    refine ⟨_, by rw [pairBounds, hAbove, hOthers]; rfl, List.forall_mem_cons.mpr ⟨?_, hWrites⟩⟩
    -- the pair stands in brackets, whichever way it is joined
    cases above with
    | true =>
      refine (hLower.writes.join hUpper.writes .and
        (lower.fragment ++ " && " ++ upper.fragment) ?_).bracket ?_
      · simp [Connective.text]
      · simp
    | false =>
      refine (hLower.writes.join hUpper.writes .or
        (lower.fragment ++ " || " ++ upper.fragment) ?_).bracket ?_
      · simp [Connective.text]
      · simp

theorem writes_intercalate {parts : List String} (hSome : parts ≠ [])
    (h : ∀ p ∈ parts, Writes n p) : Writes n (" || ".intercalate parts) := by
  induction parts with
  | nil => exact absurd rfl hSome
  | cons first rest ih =>
    obtain ⟨hFirst, hRest⟩ := List.forall_mem_cons.mp h
    cases rest with
    | nil => rwa [String.intercalate_singleton]
    | cons second rest =>
      rw [String.intercalate_cons_of_ne_nil (by simp)]
      refine hFirst.join (ih (by simp) hRest) .or _ ?_
      simp [Connective.text]

/-- Bounds that are comparisons are merged, to a condition that is accepted or to none. -/
theorem mergedExpression_accepted (h : ∀ b ∈ bounds, b.IsComparable) :
    ∃ merged, mergedExpression bounds = .ok merged ∧
      ∀ e ∈ merged, Kind.acceptsAnyWithin limit Kind.forFilter e = .ok true := by
  obtain ⟨parts, hParts, hWrites⟩ :=
    pairBounds_writes (fun b hb => h b (List.mem_filter.mp hb).1)
      (fun b hb => h b (List.mem_filter.mp hb).1)
  refine ⟨_, by rw [mergedExpression, hParts]; rfl, fun e he => ?_⟩
  split at he
  · cases he
  · rename_i hSome
    cases he
    have hParts : parts ≠ [] := by simpa using hSome
    exact (writes_intercalate hParts hWrites).accepted (Nat.le_add_left 1 limit)

end

end SparqlSelect
