import SparqlSelect.Proofs.Filter.Accepted
import SparqlSelect.Proofs.Filter.Meaning
import SparqlSelect.Proofs.Number.ReadBack

/-!
# Which numbers an interval selects

A comparison holds of a number according to the double that the text of its literal is read as. That
is the double that the clause was given, however it was spelled, because the texts of numbers are
read back and escaping a text changes nothing about what it stands for. Two bounds on one variable
are compared as the same doubles: if the lower one is less, both have to hold, and otherwise one of
them is enough. This includes equal bounds, so no pair of bounds selects a single number.

* `Single.holdsIn` — the truth of a comparison for given numbers.
* `Json.Denotes`, `readDouble?_display` — the values that are numbers, and their texts.
* `Clause.IsBound`, `IsBound.exists_means` — what a bound gives, and what it means.
* `interval_meaning` — which numbers a lower and an upper bound select.
-/

namespace SparqlSelect

open Pattern Comparison

-- ---------------------------------------------------------------------------
-- Comparisons of numbers
-- ---------------------------------------------------------------------------

/-- How a number compares with a double; with what is not a number it does not. -/
def Binary64.compareTo (n : ℚ) : Binary64 → Option Ordering
  | .finite s u => some (compare n (signed s u / unitsPerOne))
  | .infinite s => some (if s then .gt else .lt)
  | .nan => none

namespace Comparison

/-- Whether an operator holds between what compares like this. -/
def Operator.admits : Operator → Ordering → Bool
  | atMost, o => o != .gt
  | atLeast, o => o != .lt
  | unequal, o => o != .eq
  | equal, o => o == .eq
  | less, o => o == .lt
  | greater, o => o == .gt

/-- Whether an operator holds between a number and a double. -/
def Operator.relates (op : Operator) (n : ℚ) (x : Binary64) : Bool := (x.compareTo n).any op.admits

/-- The character that an escape stands for. -/
def unescapedChar : Char → Char
  | 'n' => '\n'
  | 'r' => '\r'
  | 't' => '\t'
  | 'b' => '\x08'
  | 'f' => '\x0c'
  | c => c

/-- A text up to its closing quote, without its escapes. -/
def unescaped (quote : Char) : List Char → List Char
  | [] => []
  | '\\' :: c :: rest => unescapedChar c :: unescaped quote rest
  | c :: rest => if c == quote then [] else c :: unescaped quote rest

/-- The text that a literal stands for: what is inside its quotes, or a number as it is. -/
def literalText : List Char → List Char
  | '"' :: rest => unescaped '"' rest
  | '\'' :: rest => unescaped '\'' rest
  | value => value

/-- Whether a comparison holds, given the numbers that variables stand for. Its literal is compared
with as a number, whatever its datatype is. -/
def Single.holdsIn (values : List Char → Option ℚ) (c : Single) : Bool :=
  (values c.var).any fun n =>
    (readDouble? (String.ofList (literalText c.value))).any (c.operator.relates n)

end Comparison

/-- A value is a number: an integer that is in range, a double, or a text that is read as one. -/
inductive Json.Denotes : Json → Binary64 → Prop
  | int {i : ℤ} {x : Binary64} : Binary64.ofInt? i = some x → Denotes (.int i) x
  | float {x : Binary64} : x.isDouble = true → x ≠ .nan → Denotes (.float x) x
  | text {s : String} {x : Binary64} : readDouble? s = some x → x ≠ .nan → Denotes (.str s) x

section

variable {v : Json} {x y : Binary64}

/-- A number is read back from its text. -/
theorem readDouble?_display (h : v.Denotes x) : readDouble? v.display = some x := by
  cases h with
  | int hInt => exact Binary64.readDouble?_toString hInt
  | float hDouble => exact Binary64.readDouble?_text hDouble
  | text hText => exact hText

theorem boundNumber_of_denotes (h : v.Denotes x) : boundNumber v = .ok (some x) := by
  -- no integer and no text that is read as a double is read as NaN
  have hNumber : v.toDouble = .ok x ∧ x ≠ .nan := by
    cases h with
    | int hInt =>
      refine ⟨by rw [Json.toDouble, hInt], ?_⟩
      rintro rfl
      rw [Binary64.ofInt?] at hInt
      split at hInt <;> cases hInt
    | float _ hNumber => exact ⟨rfl, hNumber⟩
    | text hText hNumber => exact ⟨by rw [Json.toDouble, hText], hNumber⟩
  rw [boundNumber, hNumber.1]
  cases x with
  | nan => exact absurd rfl hNumber.2
  | finite s u => rfl
  | infinite s => rfl

/-- Numbers are compared as doubles. -/
theorem exceeds_of_denotes {upper lower : Json} (hUpper : upper.Denotes x)
    (hLower : lower.Denotes y) : exceeds upper lower = .ok (y.lt x) := by
  rw [exceeds, boundNumber_of_denotes hUpper, boundNumber_of_denotes hLower]
  rfl

theorem not_missing_of_denotes (h : v.Denotes x) : v.isMissing = false := by
  cases h with
  | int _ => rfl
  | float _ _ => rfl
  | text hText _ =>
    rename_i s
    rw [Json.isMissing, beq_eq_false_iff_ne]
    rintro rfl
    have hNone : readDouble? "" = none := rfl
    rw [hNone] at hText
    cases hText

-- ---------------------------------------------------------------------------
-- Literals
-- ---------------------------------------------------------------------------

theorem unescaped_cons {c quote : Char} (hBackslash : c ≠ '\\') (hQuote : c ≠ quote)
    (s : List Char) : unescaped quote (c :: s) = c :: unescaped quote s := by
  rw [unescaped.eq_def]
  split
  · rename_i h
    cases h
  · rename_i h
    cases h
    exact absurd rfl hBackslash
  · rename_i h
    cases h
    rw [if_neg (by simpa using hQuote)]

/-- A text is what its escaped form stands for. -/
theorem unescaped_escape (s rest : List Char) :
    unescaped '"' (s.flatMap escapeChar ++ '"' :: rest) = s := by
  induction s with
  | nil => simp [unescaped]
  | cons c s ih =>
    -- one case for each escape, and one for all other characters
    rw [List.flatMap_cons, List.append_assoc, escapeChar.eq_def]
    split
    · simp [unescaped, unescapedChar, ih]
    · simp [unescaped, unescapedChar, ih]
    · simp [unescaped, unescapedChar, ih]
    · simp [unescaped, unescapedChar, ih]
    · simp [unescaped, unescapedChar, ih]
    · rename_i hBackslash hQuote _ _ _
      rw [List.singleton_append, unescaped_cons hBackslash hQuote, ih]

/-- The literal of a value stands for its text. -/
theorem literalText_literalOf (value : Json) (name : String) :
    literalText (literalOf value ++ "^^" ++ name).toList = value.display.toList := by
  have hLiteral : (literalOf value ++ "^^" ++ name).toList =
      '"' :: (value.display.toList.flatMap escapeChar ++ '"' :: ("^^" ++ name).toList) := by
    simp [toList_literalOf, escapeText]
  rw [hLiteral, literalText]
  exact unescaped_escape _ _

end

-- ---------------------------------------------------------------------------
-- Bounds
-- ---------------------------------------------------------------------------

/-- A clause that bounds a variable by a number. -/
structure Clause.IsBound (c : Clause) (op : Operator) (x : Binary64) : Prop where
  kind : FilterKind.of c.name = .ok .range
  comparison : comparisonSymbol c.comparison = String.ofList op.text
  value : c.value.Denotes x

/-- The bound that a clause gives with its fragment. -/
def Clause.bound (c : Clause) (fragment : String) : Bound :=
  ⟨c.value, comparisonSymbol c.comparison, fragment⟩

section

variable {s : Settings} {c lower upper : Clause} {op op' : Operator} {a b : Binary64} {x : String}
  {datatype : Option Json}

/-- A bound is translated to a comparison that holds of the numbers within the bound. -/
theorem Clause.IsBound.exists_means (h : c.IsBound op a) (hVar : Matches Token.var x.toList)
    (hDatatype : s.Abbreviates (datatype.getD s.defaultDatatype)) :
    ∃ f single, (s.translate c (some (.str x)) datatype).outcome = .ok (some f) ∧
      Means f (.comparison single) (fun truth => truth single) ∧
      ∀ values n, values x.toList = some n → single.holdsIn values = op.relates n a := by
  obtain ⟨literal, hLiteral, hValue⟩ := typedLiteral_compared hDatatype c.value
  obtain ⟨name, rfl⟩ : ∃ name, literal = literalOf c.value ++ "^^" ++ name := by
    obtain ⟨name, -, hText⟩ := bind_eq_ok_iff.mp hLiteral
    exact ⟨name, (Except.ok.inj hText).symm⟩
  refine ⟨x ++ " " ++ comparisonSymbol c.comparison ++ " " ++ (literalOf c.value ++ "^^" ++ name),
    ⟨x.toList, op, _, hVar, hValue⟩, ?_,
    ⟨?_, rfl, Nat.zero_le 1, fun truth => Tree.value_comparison _⟩, ?_⟩
  · -- a value that denotes a number is not missing, so the range is translated
    have hGiven : (FilterKind.range.needsValue && c.value.isMissing) = false := by
      rw [not_missing_of_denotes h.value, Bool.and_false]
    rw [translate_onVariable h.kind (by decide)]
    dsimp only
    rw [hGiven, if_neg Bool.false_ne_true]
    refine raise_eq_ok_iff.mpr ?_
    rw [Settings.expression, Json.display, hLiteral]
    rfl
  · refine isWriting_comparison _ ?_
    simp [h.comparison]
  · intro values n hn
    rw [Single.holdsIn, hn, Option.any_some]
    simp only [literalText_literalOf, String.ofList_toList, readDouble?_display h.value,
      Option.any_some]

/-- Which side a bound is on is told by its operator. -/
theorem isLower_bound (h : c.IsBound op a) (hOp : op ∈ [.greater, .atLeast]) (f : String) :
    (c.bound f).isLower = true := by
  simp only [List.mem_cons, List.not_mem_nil, or_false] at hOp
  rw [Bound.isLower, Clause.bound, h.comparison]
  dsimp only
  rcases hOp with rfl | rfl <;> decide +kernel

theorem isUpper_bound (h : c.IsBound op a) (hOp : op ∈ [.less, .atMost]) (f : String) :
    (c.bound f).isLower = false ∧ (c.bound f).isUpper = true := by
  simp only [List.mem_cons, List.not_mem_nil, or_false] at hOp
  rw [Bound.isLower, Bound.isUpper, Clause.bound, h.comparison]
  dsimp only
  rcases hOp with rfl | rfl <;> decide +kernel

/-- A lower and an upper bound are merged to one pair, in whichever order they are given. -/
theorem mergedExpression_pair {lower upper : Bound} {bounds : List Bound} {isInterval : Bool}
    (hLower : lower.isLower = true) (hUpper : upper.isLower = false ∧ upper.isUpper = true)
    (hExceeds : exceeds upper.value lower.value = .ok isInterval)
    (hBounds : bounds ∈ [[lower, upper], [upper, lower]]) :
    mergedExpression bounds = .ok (some (MergedPart.pair lower upper isInterval).text) := by
  have hQueues : lowersOf bounds = [lower] ∧ uppersOf bounds = [upper] := by
    simp only [List.mem_cons, List.not_mem_nil, or_false] at hBounds
    rcases hBounds with rfl | rfl <;> simp [lowersOf, uppersOf, hLower, hUpper]
  have hParts : mergedParts bounds = .ok [.pair lower upper isInterval] := by
    rw [mergedParts, hQueues.1, hQueues.2, partsOfQueues]
    simp [MergedPart.ofPair, hExceeds, unpaired, Except.map, bind, Except.bind, pure, Except.pure]
  rw [mergedExpression_eq_map, hParts]
  simp [Except.map, joinedParts]

/-- A lower and an upper bound on one variable are merged to one condition. Both comparisons have to
hold if the lower bound is less than the upper one, and otherwise one of them. -/
theorem exists_means_interval (hVar : Matches Token.var x.toList)
    (hDatatype : s.Abbreviates (datatype.getD s.defaultDatatype))
    (hLower : lower.IsBound op a) (hOp : op ∈ [.greater, .atLeast])
    (hUpper : upper.IsBound op' b) (hOp' : op' ∈ [.less, .atMost]) :
    ∃ f g text tree, (s.translate lower (some (.str x)) datatype).outcome = .ok (some f) ∧
      (s.translate upper (some (.str x)) datatype).outcome = .ok (some g) ∧
      (∀ bounds ∈ [[lower.bound f, upper.bound g], [upper.bound g, lower.bound f]],
        mergedExpression bounds = .ok (some text)) ∧
      ∃ single single' : Single,
        Means text tree (fun truth =>
          if a.lt b then truth single && truth single' else truth single || truth single') ∧
        ∀ values n, values x.toList = some n →
          single.holdsIn values = op.relates n a ∧ single'.holdsIn values = op'.relates n b := by
  obtain ⟨f, single, hf, hMeans, hHolds⟩ := hLower.exists_means hVar hDatatype
  obtain ⟨g, single', hg, hMeans', hHolds'⟩ := hUpper.exists_means hVar hDatatype
  -- the order of the merged bounds is the order of the numbers they denote
  have hExceeds : exceeds (upper.bound g).value (lower.bound f).value = .ok (a.lt b) :=
    exceeds_of_denotes hUpper.value hLower.value
  have hAccepted : isComparison (lower.bound f).fragment.toList = true :=
    hMeans.isWriting.isComparison_eq
  have hAccepted' : isComparison (upper.bound g).fragment.toList = true :=
    hMeans'.isWriting.isComparison_eq
  obtain ⟨inner, hPair⟩ := exists_means_pair hAccepted hAccepted' (a.lt b)
  refine ⟨f, g, _, .bracketed inner, hf, hg, fun bounds hBounds => mergedExpression_pair
    (isLower_bound hLower hOp f) (isUpper_bound hUpper hOp' g) hExceeds hBounds, single, single',
    ⟨hPair.isWriting, hPair.leansLeft, hPair.depth, fun truth => ?_⟩,
    fun values n hn => ⟨hHolds values n hn, hHolds' values n hn⟩⟩
  have hFirst : textHolds truth (lower.bound f).fragment = truth single := hMeans.textHolds truth
  have hSecond : textHolds truth (upper.bound g).fragment = truth single' := hMeans'.textHolds truth
  rw [hPair.value]
  -- bounds in order are joined by a conjunction, others by a disjunction
  cases a.lt b with
  | true => rw [MergedPart.holds, hFirst, hSecond, if_pos rfl]
  | false => rw [MergedPart.holds, hFirst, hSecond, if_neg Bool.false_ne_true]

/-- **An interval selects its numbers.** A lower bound by a number `a` and an upper bound by a
number `b` on one variable, in whichever order and spelling, are merged to an expression. It holds
of a number exactly if the number satisfies both bounds, should `a` be less than `b` as a double,
and at least one of them otherwise. -/
theorem interval_meaning (hVar : Kind.var.accepts x.toList = true)
    (hDatatype : s.Abbreviates (datatype.getD s.defaultDatatype))
    (hLower : lower.IsBound op a) (hOp : op ∈ [.greater, .atLeast])
    (hUpper : upper.IsBound op' b) (hOp' : op' ∈ [.less, .atMost]) :
    ∃ f g text tree, (s.translate lower (some (.str x)) datatype).outcome = .ok (some f) ∧
      (s.translate upper (some (.str x)) datatype).outcome = .ok (some g) ∧
      (∀ bounds ∈ [[lower.bound f, upper.bound g], [upper.bound g, lower.bound f]],
        mergedExpression bounds = .ok (some text)) ∧
      parse? text.toList = some tree ∧
      ∀ values n, values x.toList = some n → tree.value (·.holdsIn values) =
        if a.lt b then op.relates n a && op'.relates n b
        else op.relates n a || op'.relates n b := by
  obtain ⟨f, g, text, tree, hf, hg, hMerged, single, single', hMeans, hHolds⟩ :=
    exists_means_interval (accepts_iff.mp hVar) hDatatype hLower hOp hUpper hOp'
  refine ⟨f, g, text, tree, hf, hg, hMerged, hMeans.parse, fun values n hn => ?_⟩
  obtain ⟨hFirst, hSecond⟩ := hHolds values n hn
  rw [hMeans.value, hFirst, hSecond]

end

/-- A range clause. -/
def rangeClause (comparison : String) (value : Json) : Clause where
  name := .str "range"
  value := value
  comparison := comparison
  center := .null
  radius := none
  points := []
  combination := ""

theorem abbreviates_float : Settings.standard.Abbreviates
    ((some (.str "xsd:float")).getD Settings.standard.defaultDatatype) :=
  ⟨"xsd:float", by decide +kernel, by decide +kernel⟩

/-- From above 5 up to 7.5: 6 is selected, and 8 is not. -/
theorem interval_meaning_five :
    ∃ f g text tree,
      mergedExpression [(rangeClause "gt" (.int 5)).bound f,
        (rangeClause "<=" (.str "7.5")).bound g] = .ok (some text) ∧
      parse? text.toList = some tree ∧
      tree.value (·.holdsIn fun _ => some 6) = true ∧
      tree.value (·.holdsIn fun _ => some 8) = false := by
  have hLower : (rangeClause "gt" (.int 5)).IsBound .greater
      (.finite false (5 * Binary64.unitsPerOne)) :=
    ⟨by decide +kernel, by decide +kernel, .int (by decide +kernel)⟩
  have hUpper : (rangeClause "<=" (.str "7.5")).IsBound .atMost
      (Binary64.ofDecimal false 75 (-1)) :=
    ⟨by decide +kernel, by decide +kernel, .text (by decide +kernel) (by decide +kernel)⟩
  have hLess : (Binary64.finite false (5 * Binary64.unitsPerOne)).lt
      (Binary64.ofDecimal false 75 (-1)) = true := by decide +kernel
  have hVar : Kind.var.accepts "?x".toList = true := by decide +kernel
  obtain ⟨f, g, text, tree, -, -, hMerged, hParse, hValue⟩ :=
    interval_meaning hVar abbreviates_float hLower (by simp) hUpper (by simp)
  -- five is less than seven and a half, so the text is a conjunction
  rw [hLess] at hValue
  refine ⟨f, g, text, tree, hMerged _ List.mem_cons_self, hParse, ?_, ?_⟩
  · rw [hValue _ 6 rfl]
    decide +kernel
  · rw [hValue _ 8 rfl]
    decide +kernel

/-- From 5 up to 5: even 6 is selected. -/
theorem point_selects_more :
    (rangeClause ">=" (.str "5")).IsBound .atLeast (.finite false (5 * Binary64.unitsPerOne)) ∧
      (rangeClause "<=" (.str "5")).IsBound .atMost (.finite false (5 * Binary64.unitsPerOne)) ∧
      ∃ f g text tree,
        (Settings.standard.translate (rangeClause ">=" (.str "5")) (some (.str "?x"))
          (some (.str "xsd:float"))).outcome = .ok (some f) ∧
        (Settings.standard.translate (rangeClause "<=" (.str "5")) (some (.str "?x"))
          (some (.str "xsd:float"))).outcome = .ok (some g) ∧
        mergedExpression [(rangeClause ">=" (.str "5")).bound f,
          (rangeClause "<=" (.str "5")).bound g] = .ok (some text) ∧
        parse? text.toList = some tree ∧
        tree.value (·.holdsIn fun _ => some 6) = true ∧
        Operator.atMost.relates 6 (.finite false (5 * Binary64.unitsPerOne)) = false := by
  have hLower : (rangeClause ">=" (.str "5")).IsBound .atLeast
      (.finite false (5 * Binary64.unitsPerOne)) :=
    ⟨by decide +kernel, by decide +kernel, .text (by decide +kernel) (by decide +kernel)⟩
  have hUpper : (rangeClause "<=" (.str "5")).IsBound .atMost
      (.finite false (5 * Binary64.unitsPerOne)) :=
    ⟨by decide +kernel, by decide +kernel, .text (by decide +kernel) (by decide +kernel)⟩
  -- a number is not less than itself, so the text is a disjunction
  have hLess : (Binary64.finite false (5 * Binary64.unitsPerOne)).lt
      (.finite false (5 * Binary64.unitsPerOne)) = false := by decide +kernel
  have hVar : Kind.var.accepts "?x".toList = true := by decide +kernel
  obtain ⟨f, g, text, tree, hf, hg, hMerged, single, single', hMeans, hHolds⟩ :=
    exists_means_interval (accepts_iff.mp hVar) abbreviates_float hLower (by simp) hUpper (by simp)
  refine ⟨hLower, hUpper, f, g, text, tree, hf, hg, hMerged _ List.mem_cons_self, hMeans.parse, ?_,
    by decide +kernel⟩
  obtain ⟨hFirst, hSecond⟩ := hHolds (fun _ => some 6) 6 rfl
  rw [hMeans.value, hFirst, hSecond, hLess]
  decide +kernel

end SparqlSelect
