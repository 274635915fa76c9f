import SparqlSelect.Proofs.Fragment.Grammar

/-!
# Conditions read as trees, and their truth

A condition is read from left to right, so the tree of a chain leans to the left: what comes next is
joined to all that came before. The truth of a chain is found in the same order. `&&` binds tighter
than `||`, so all that has to be kept is whether a conjunction that has ended holds, and whether the
one at hand does so far.

Where each part of a text ends is known from the reader, which is why reading its tree needs no
fuel: every part is shorter than what it is a part of.

* `Tree.value` — the truth of a condition, given the truth of its comparisons.
* `Tree.value_or`, `Tree.value_and` — a disjunction, and a conjunction of two operands.
* `tree?`, `parse?` — the tree of what the reader takes of a text.
* `parse?_of_isWriting` — every tree that leans to the left is read back from all of its writings.
-/

namespace SparqlSelect

namespace Comparison

open Pattern

-- ---------------------------------------------------------------------------
-- Truth
-- ---------------------------------------------------------------------------

/-- How far a chain has been evaluated: whether a conjunction that has ended holds, and whether the
one at hand does so far. -/
structure Verdict where
  ended : Bool
  atHand : Bool

namespace Verdict

/-- Nothing has ended, and nothing at hand has failed. -/
def start : Verdict := ⟨false, true⟩

/-- The next operand: `&&` adds it to the conjunction at hand, and `||` begins another one. -/
def next (st : Verdict) : Connective → Bool → Verdict
  | .and, b => ⟨st.ended, st.atHand && b⟩
  | .or, b => ⟨st.ended || st.atHand, b⟩

/-- Whether one of the conjunctions holds. -/
def holds (st : Verdict) : Bool := st.ended || st.atHand

end Verdict

/-- Goes on with a chain behind a connective. -/
def Tree.feed (truth : Single → Bool) : Tree → Connective → Verdict → Verdict
  | comparison c, op, st => st.next op (truth c)
  | joined left op' right, op, st => right.feed truth op' (left.feed truth op st)
  | bracketed inner, op, st => st.next op (inner.feed truth .and .start).holds

/-- The truth of a condition. -/
def Tree.value (truth : Single → Bool) (e : Tree) : Bool := (e.feed truth .and .start).holds

section

variable {truth : Single → Bool}

@[simp] theorem Tree.value_comparison (c : Single) : (comparison c).value truth = truth c := by
  simp [value, feed, Verdict.next, Verdict.start, Verdict.holds]

@[simp] theorem Tree.value_bracketed (e : Tree) : (bracketed e).value truth = e.value truth := by
  simp [value, feed, Verdict.next, Verdict.start, Verdict.holds]

/-- A conjunction that holds stays there to the end of the chain. -/
theorem Tree.feed_ended (e : Tree) (op : Connective) (b : Bool) (st : Verdict) :
    e.feed truth op ⟨b || st.ended, st.atHand⟩ =
      ⟨b || (e.feed truth op st).ended, (e.feed truth op st).atHand⟩ := by
  induction e generalizing op st with
  | comparison c => cases op <;> simp [feed, Verdict.next, Bool.or_assoc]
  | joined left op' right ihLeft ihRight => simp only [feed, ihLeft, ihRight]
  | bracketed inner _ => cases op <;> simp [feed, Verdict.next, Bool.or_assoc]

/-- Behind `||` a conjunction begins. -/
theorem Tree.feed_or (e : Tree) (st : Verdict) :
    e.feed truth .or st = e.feed truth .and ⟨st.holds, true⟩ := by
  induction e generalizing st with
  | comparison c => simp [feed, Verdict.next, Verdict.holds]
  | joined left op right ihLeft _ => simp only [feed, ihLeft]
  | bracketed inner _ => simp [feed, Verdict.next, Verdict.holds]

/-- Whatever is joined by `||` is a disjunction. -/
theorem Tree.value_or (left right : Tree) :
    (joined left .or right).value truth = (left.value truth || right.value truth) := by
  have hStart : Verdict.mk (left.feed truth .and .start).holds true =
      ⟨left.value truth || Verdict.start.ended, Verdict.start.atHand⟩ := by
    simp [value, Verdict.start]
  have hJoined : (joined left .or right).value truth =
      (right.feed truth .and ⟨(left.feed truth .and .start).holds, true⟩).holds := by
    rw [value, feed, feed_or]
  rw [hJoined, hStart, right.feed_ended]
  simp [Verdict.holds, value, Bool.or_assoc]

end

/-- Whether a condition is an operand: a comparison, or one in brackets. -/
def Tree.isOperand : Tree → Bool
  | comparison _ => true
  | joined _ _ _ => false
  | bracketed _ => true

/-- `&&` joins two operands to their conjunction. -/
theorem Tree.value_and {truth : Single → Bool} {left right : Tree}
    (hLeft : left.isOperand = true) (hRight : right.isOperand = true) :
    (joined left .and right).value truth = (left.value truth && right.value truth) := by
  cases left with
  | joined _ _ _ => cases hLeft
  | _ =>
    cases right with
    | joined _ _ _ => cases hRight
    | _ => simp [value, feed, Verdict.next, Verdict.start, Verdict.holds]

-- ---------------------------------------------------------------------------
-- Reading
-- ---------------------------------------------------------------------------

section

variable {p : Pattern} {g m rest s t : List Char}

/-- The token that is the longest one behind gaps. -/
def tokenText? (p : Pattern) (s : List Char) : Option { t : List Char // Matches p t } :=
  match h : p.matchLength? (skipGaps s) with
  | some n => some ⟨(skipGaps s).take n, by
      obtain ⟨t, rest, hSplit, rfl, hText, -⟩ := matchLength?_eq_some_iff.mp h
      rw [hSplit, List.take_left]
      exact hText⟩
  | none => none

/-- The operators, each once. -/
def Operator.all : List Operator := [atMost, atLeast, unequal, equal, less, greater]

/-- The operator that a text is. -/
def Operator.ofText? (t : List Char) : Option Operator := Operator.all.find? (·.text == t)

/-- The connective that a text is. -/
def Connective.ofText? (t : List Char) : Option Connective := [and, or].find? (·.text == t)

/-- The comparison at the start of a text. -/
def single? (s : List Char) : Option Single := do
  let x ← tokenText? Token.var s
  let afterVar ← token? Token.var s
  let o ← tokenText? Token.comparator afterVar
  let afterOperator ← token? Token.comparator afterVar
  let v ← tokenText? comparedValue afterOperator
  let op ← Operator.ofText? o.1
  some ⟨x.1, op, v.1, x.2, v.2⟩

/-- The connective at the start of a text. -/
def connective? (s : List Char) : Option Connective :=
  (tokenText? Token.connective s).bind fun t => Connective.ofText? t.1

/-- What is to be read: an operand, an expression, or what is joined to a condition. -/
inductive Goal where
  | operand
  | expression
  | joined (left : Tree)

/-- The order in which goals at one place are reached. -/
def Goal.rank : Goal → Nat
  | operand => 0
  | expression => 1
  | joined _ => 0

/-- The tree of what the reader takes of a text; where a part ends is asked of the reader. -/
def tree? (goal : Goal) (s : List Char) : Option Tree :=
  match goal with
  | .operand =>
    match single? s with
    | some c => some (.comparison c)
    | none =>
      match _h : token? (char '(') s with
      | some rest => (tree? .expression rest).map .bracketed
      | none => none
  | .expression =>
    match _h : restAfter none .operand s with
    | .ok rest => (tree? .operand s).bind fun e => tree? (.joined e) rest
    | .error _ => none
  | .joined left =>
    match _h : token? Token.connective s with
    | some t =>
      match _h' : restAfter none .operand t with
      | .ok rest => (connective? s).bind fun op =>
          (tree? .operand t).bind fun right => tree? (.joined (.joined left op right)) rest
      | .error _ => some left
    | none => some left
termination_by (s.length, goal.rank)
decreasing_by
  · exact Prod.Lex.left _ _ (length_of_token? rfl _h)
  · exact Prod.Lex.right _ (by decide)
  · exact Prod.Lex.left _ _ ((takes_of_restAfter _h).length.2 (by decide))
  · exact Prod.Lex.left _ _ (length_of_token? rfl _h)
  · have hRest := (takes_of_restAfter _h').length.1
    have hToken := length_of_token? rfl _h
    exact Prod.Lex.left _ _ (by omega)

/-- The tree of a text that is an expression as a whole. -/
def parse? (s : List Char) : Option Tree :=
  if ends (restAfter none .expression s) then tree? .expression s else none

-- ---------------------------------------------------------------------------
-- Writings are read back
-- ---------------------------------------------------------------------------

/-- A token behind a gap is read as its longest text. -/
theorem tokenText?_eq_some (hGaps : Gaps g) (h : Longest p t rest)
    (hSome : p.acceptsEmpty = false) (hStart : avoidsStart p gapChars = true) :
    tokenText? p (g ++ (t ++ rest)) = some ⟨t, h.isText⟩ := by
  have hSkip := skipGaps_token hGaps h.isText hSome hStart rest
  have hLength : p.matchLength? (skipGaps (g ++ (t ++ rest))) = some t.length :=
    matchLength?_eq_some_iff.mpr ⟨t, rest, hSkip, rfl, h⟩
  rw [tokenText?]
  split
  · rename_i n hn
    obtain rfl := Option.some.inj (hn.symm.trans hLength)
    simp only [hSkip, List.take_left]
  · rename_i hn
    cases hn.symm.trans hLength

theorem tokenText?_eq_none (h : token? p s = none) : tokenText? p s = none := by
  rw [token?, after?, Option.map_eq_none_iff] at h
  rw [tokenText?]
  split
  · rename_i n hn
    cases hn.symm.trans h
  · rfl

@[simp] theorem Operator.ofText?_text (op : Operator) : Operator.ofText? op.text = some op := by
  cases op <;> rfl

@[simp] theorem Connective.ofText?_text (op : Connective) :
    Connective.ofText? op.text = some op := by
  cases op <;> rfl

/-- A connective behind a gap is read as itself. -/
theorem connective?_eq_some (hGaps : Gaps g) (op : Connective) (s : List Char) :
    connective? (g ++ (op.text ++ s)) = some op := by
  rw [connective?, tokenText?_eq_some hGaps (longest_connective op.matches_text s) rfl (by decide)]
  exact op.ofText?_text

/-- A comparison is read back, whatever gaps stand in it. -/
theorem single?_of_spaced {c : Single} (h : Spaced c.tokens m) (hStops : Stops rest) :
    single? (m ++ rest) = some c := by
  obtain ⟨g, _, hGaps, hAfterVar, rfl⟩ := spaced_cons_iff.mp h
  obtain ⟨g', _, hGaps', hAfterOperator, rfl⟩ := spaced_cons_iff.mp hAfterVar
  obtain ⟨g'', _, hGaps'', hAfterValue, rfl⟩ := spaced_cons_iff.mp hAfterOperator
  obtain rfl := spaced_nil_iff.mp hAfterValue
  obtain ⟨hVar, hComparator, hValue⟩ := c.longest hGaps' hGaps'' hStops
  -- the three tokens are read one after the other, with their gaps
  simp only [List.append_assoc, List.append_nil]
  simp only [single?, tokenText?_eq_some hGaps hVar rfl (by decide),
    token?_eq_some hGaps hVar rfl (by decide),
    tokenText?_eq_some hGaps' hComparator rfl (by decide),
    token?_eq_some hGaps' hComparator rfl (by decide),
    tokenText?_eq_some hGaps'' hValue rfl (by decide), Option.bind_eq_bind, Option.bind_some,
    Operator.ofText?_text]

/-- No comparison starts with a bracket. -/
theorem single?_bracket (hGaps : Gaps g) (s : List Char) :
    single? (g ++ (['('] ++ s)) = none := by
  have hNone : token? Token.var (g ++ (['('] ++ s)) = none :=
    token?_gaps_cons hGaps (by decide) (by decide) rfl s
  rw [single?, tokenText?_eq_none hNone]
  rfl

/-- An expression is read as an operand and then what is joined to it. -/
theorem tree?_expression (h : restAfter none .operand s = .ok rest) :
    tree? .expression s = (tree? .operand s).bind fun e => tree? (.joined e) rest := by
  rw [tree?.eq_2]
  split
  · rename_i r hr
    obtain rfl := Except.ok.inj (hr.symm.trans h)
    rfl
  · rename_i hr
    cases hr.symm.trans h

/-- What starts no comparison and opens a bracket is read as a bracketed expression. -/
theorem tree?_bracket (h : single? s = none) (hOpen : token? (char '(') s = some t) :
    tree? .operand s = (tree? .expression t).map .bracketed := by
  rw [tree?.eq_1, h]
  dsimp only
  split
  · rename_i r hr
    obtain rfl := Option.some.inj (hr.symm.trans hOpen)
    rfl
  · rename_i hr
    cases hr.symm.trans hOpen

/-- A connective joins the next operand to what has been read, from the left. -/
theorem tree?_joined (left : Tree) (h : token? Token.connective s = some t)
    (hRest : restAfter none .operand t = .ok rest) :
    tree? (.joined left) s = (connective? s).bind fun op =>
      (tree? .operand t).bind fun right => tree? (.joined (.joined left op right)) rest := by
  rw [tree?.eq_3]
  split
  · rename_i r hr
    -- the connective that was read is the given one
    obtain rfl := Option.some.inj (hr.symm.trans h)
    split
    · rename_i r' hr'
      -- and so is the rest behind the operand
      obtain rfl := Except.ok.inj (hr'.symm.trans hRest)
      rfl
    · rename_i hr'
      cases hr'.symm.trans hRest
  · rename_i hr
    cases hr.symm.trans h

/-- Without a connective the tree is what has been read. -/
theorem tree?_joined_none (left : Tree) (h : token? Token.connective s = none) :
    tree? (.joined left) s = some left := by
  rw [tree?.eq_3]
  split
  · rename_i r hr
    cases hr.symm.trans h
  · rfl

/-- Whether every chain in a condition leans to the left. -/
def Tree.leansLeft : Tree → Bool
  | comparison _ => true
  | joined left _ right => left.leansLeft && right.isOperand && right.leansLeft
  | bracketed inner => inner.leansLeft

/-- An operand is read back, and what stands behind it is left. -/
def ReadsOperand (e : Tree) (m rest : List Char) : Prop :=
  tree? .operand (m ++ rest) = some e ∧ restAfter none .operand (m ++ rest) = .ok rest

theorem ReadsOperand.expression {e : Tree} (h : ReadsOperand e m rest) :
    tree? .expression (m ++ rest) = tree? (.joined e) rest := by
  rw [tree?_expression h.2, h.1]
  rfl

/-- A writing is read back up to its end; what stands there is read on, but for an operand. -/
theorem tree?_of_spaced {e : Tree} (h : Spaced e.tokens m) (hStops : Stops rest)
    (hLeft : e.leansLeft = true) :
    tree? .expression (m ++ rest) = tree? (.joined e) rest ∧
      (e.isOperand = true → ReadsOperand e m rest) := by
  -- induction on the tree: an operand is read as itself, and what is joined to it from the left
  induction e generalizing m rest with
  | comparison c =>
    have hRead : ReadsOperand (.comparison c) m rest := by
      refine ⟨?_, restAfter_comparison (comparison?_of_spaced h hStops)⟩
      rw [tree?, single?_of_spaced h hStops]
    exact ⟨hRead.expression, fun _ => hRead⟩
  | bracketed inner ih =>
    obtain ⟨g, _, hGaps, hAfterOpen, rfl⟩ := spaced_cons_iff.mp h
    obtain ⟨s, _, hInner, hClose, rfl⟩ := spaced_append_iff.mp hAfterOpen
    obtain ⟨g', _, hGaps', hAfterClose, rfl⟩ := spaced_cons_iff.mp hClose
    obtain rfl := spaced_nil_iff.mp hAfterClose
    obtain ⟨hStops', hNothing⟩ := stops_bracket hGaps' rest
    have hRead : ReadsOperand (.bracketed inner) (g ++ (['('] ++ (s ++ (g' ++ ([')'] ++ [])))))
        rest := by
      simp only [ReadsOperand, List.append_assoc, List.append_nil]
      refine ⟨?_, restAfter_bracketed hGaps hGaps' rfl
        (restAfter_of_spaced (Room.holds_none _) hInner hStops')⟩
      rw [tree?_bracket (single?_bracket hGaps _) (token?_open hGaps _),
        (ih hInner hStops' hLeft).1, tree?_joined_none inner hNothing]
      rfl
    exact ⟨hRead.expression, fun _ => hRead⟩
  | joined left op right ihLeft ihRight =>
    obtain ⟨s, _, hLeftTokens, hJoined, rfl⟩ := spaced_append_iff.mp h
    obtain ⟨g, s', hGaps, hRightTokens, rfl⟩ := spaced_cons_iff.mp hJoined
    obtain ⟨hLeft', hRight⟩ := Bool.and_eq_true_iff.mp hLeft
    obtain ⟨hLeft', hOperand⟩ := Bool.and_eq_true_iff.mp hLeft'
    have hReadRight := (ihRight hRightTokens hStops hRight).2 hOperand
    have hConnective := token?_connective hGaps op (s' ++ rest)
    refine ⟨?_, fun hNever => by cases hNever⟩
    simp only [List.append_assoc]
    rw [(ihLeft hLeftTokens (stops_connective hGaps op _) hLeft').1,
      tree?_joined left hConnective hReadRight.2, connective?_eq_some hGaps, hReadRight.1]
    rfl

/-- A condition whose chains lean to the left is read back from each of its writings. -/
theorem parse?_of_isWriting {e : Tree} (hLeft : e.leansLeft = true) (h : e.IsWriting s) :
    parse? s = some e := by
  obtain ⟨rest, hRead, hGaps⟩ := h.ends_expression (Room.holds_none _)
  have hEnds : ends (restAfter none .expression s) = true := by
    rw [hRead]
    exact List.all_eq_true.mpr hGaps
  obtain ⟨m, after, hTokens, hAfter, rfl⟩ := Tree.isWriting_iff.mp h
  have hStops := stops_gaps hAfter
  have hNothing : token? Token.connective after = none := token?_gaps hAfter rfl
  rw [parse?, if_pos hEnds, (tree?_of_spaced hTokens hStops hLeft).1, tree?_joined_none e hNothing]

end

end Comparison

end SparqlSelect
