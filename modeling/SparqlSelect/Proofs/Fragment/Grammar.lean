import SparqlSelect.Fragment.Kind
import SparqlSelect.Proofs.Fragment.Tokens
import SparqlSelect.Settings.Basic

/-!
# The language of comparisons

The reader of comparisons takes the longest token, never goes back on a choice and runs on fuel.
What it accepts is a language that can be described without any of this: the writings of trees of
comparisons, connectives and brackets, with gaps wherever two tokens meet and at both ends.

Every writing is read, by induction on the tree: what is left after an operand is what the reader
goes on with, whatever tree the operand is part of. The only thing that can stop it is a bracket for
which it has no room, and it has room for as many as the tree is deep. Everything read is a writing,
by induction on what was taken: what follows an operand can be joined to any tree.

* `Tree`, `Tree.tokens`, `Tree.IsWriting` — conditions, and the texts that write them.
* `Tree.depth`, `Room.Holds` — how deep a condition goes, and where there is room for it.
* `restAfter_of_spaced`, `restAfter_tooDeep` — how a writing is read, with and without the room.
* `exists_of_takes` — what has been read is a writing.
* `comparisons_are_writings` — the texts that are accepted are the writings of trees.
-/

namespace SparqlSelect

namespace Comparison

open Pattern

-- ---------------------------------------------------------------------------
-- Trees and their writings
-- ---------------------------------------------------------------------------

/-- The operators that compare. -/
inductive Operator where
  | atMost
  | atLeast
  | unequal
  | equal
  | less
  | greater
deriving DecidableEq, Repr

/-- The text of an operator. -/
def Operator.text : Operator → List Char
  | atMost => ['<', '=']
  | atLeast => ['>', '=']
  | unequal => ['!', '=']
  | equal => ['=']
  | less => ['<']
  | greater => ['>']

/-- The operators that join conditions. -/
inductive Connective where
  | and
  | or
deriving DecidableEq, Repr

/-- The text of a connective. -/
def Connective.text : Connective → List Char
  | and => ['&', '&']
  | or => ['|', '|']

/-- A variable compared with a typed text or a number. -/
structure Single where
  var : List Char
  operator : Operator
  value : List Char
  isVar : Matches Token.var var
  isValue : Matches comparedValue value

/-- A condition: a comparison, two conditions joined, or a condition in brackets. A chain is joined
two by two; how it is grouped makes no difference to its tokens. -/
inductive Tree where
  | comparison (c : Single)
  | joined (left : Tree) (connective : Connective) (right : Tree)
  | bracketed (inner : Tree)

/-- Whether a condition is a comparison that stands alone. -/
def Tree.isSingle : Tree → Bool
  | comparison _ => true
  | joined _ _ _ => false
  | bracketed _ => false

/-- How many brackets of a condition stand one inside the other. -/
def Tree.depth : Tree → Nat
  | comparison _ => 0
  | joined left _ right => max left.depth right.depth
  | bracketed inner => inner.depth + 1

/-- There is room for a number of brackets, one inside the other. -/
def Room.Holds (room : Room) (depth : Nat) : Prop := ∀ n ∈ room, depth ≤ n

/-- The tokens of a comparison. -/
def Single.tokens (c : Single) : List (List Char) := [c.var, c.operator.text, c.value]

/-- The tokens of a condition, from left to right. -/
def Tree.tokens : Tree → List (List Char)
  | comparison c => c.tokens
  | joined left connective right => left.tokens ++ connective.text :: right.tokens
  | bracketed inner => ['('] :: (inner.tokens ++ [[')']])

/-- A text is made of tokens with gaps between them, which may be empty. -/
inductive Written : List (List Char) → List Char → Prop
  | last (t : List Char) : Written [t] t
  | next (t : List Char) {gap : List Char} {ts : List (List Char)} {s : List Char} :
    Gaps gap → Written ts s → Written (t :: ts) (t ++ (gap ++ s))

/-- A text writes a condition: its tokens with gaps before, between and after them. -/
def Tree.IsWriting (e : Tree) (s : List Char) : Prop :=
  ∃ before text after, Gaps before ∧ Written e.tokens text ∧ Gaps after ∧
    s = before ++ (text ++ after)

-- ---------------------------------------------------------------------------
-- Tokens behind gaps
-- ---------------------------------------------------------------------------

/-- A text is made of tokens with a gap in front of each. This is how the reader takes them, and
such texts can be put together. -/
inductive Spaced : List (List Char) → List Char → Prop
  | nil : Spaced [] []
  | cons {gap t s : List Char} {ts : List (List Char)} : Gaps gap → Spaced ts s →
    Spaced (t :: ts) (gap ++ (t ++ s))

section

variable {gap s t m rest : List Char} {ts us : List (List Char)} {c : Char}

/-- Tokens spaced one after another are spaced together. -/
theorem Spaced.append (h : Spaced ts s) (h' : Spaced us t) : Spaced (ts ++ us) (s ++ t) := by
  induction h with
  | nil => exact h'
  | @cons gap u s ts hGaps _ ih =>
    have hAll : gap ++ (u ++ s) ++ t = gap ++ (u ++ (s ++ t)) := by simp only [List.append_assoc]
    rw [hAll]
    exact .cons hGaps ih

/-- Spaced tokens split where their list does. -/
theorem spaced_append_iff :
    Spaced (ts ++ us) m ↔ ∃ s t, Spaced ts s ∧ Spaced us t ∧ m = s ++ t := by
  constructor
  · intro h
    induction ts generalizing m with
    | nil => exact ⟨[], m, .nil, h, rfl⟩
    | cons u ts ih =>
      cases h with
      | cons hGaps hTokens =>
        -- the text of the first token goes to the left part, what `ih` gives stands behind it
        obtain ⟨s, t, hLeft, hRight, rfl⟩ := ih hTokens
        exact ⟨_, t, .cons hGaps hLeft, hRight, by simp only [List.append_assoc]⟩
  · rintro ⟨s, t, hLeft, hRight, rfl⟩
    exact hLeft.append hRight

/-- The first token stands after the first gap. -/
theorem spaced_cons_iff :
    Spaced (t :: ts) m ↔ ∃ gap s, Gaps gap ∧ Spaced ts s ∧ m = gap ++ (t ++ s) := by
  constructor
  · intro h
    cases h with
    | cons hGaps hTokens => exact ⟨_, _, hGaps, hTokens, rfl⟩
  · rintro ⟨gap, s, hGaps, hTokens, rfl⟩
    exact .cons hGaps hTokens

theorem spaced_nil_iff : Spaced [] m ↔ m = [] := by
  constructor
  · intro h
    cases h
    rfl
  · rintro rfl
    exact .nil

/-- A gap before written tokens spaces them. -/
theorem Written.spaced (h : Written ts s) (hGaps : Gaps gap) : Spaced ts (gap ++ s) := by
  induction h generalizing gap with
  | last t =>
    have hText : gap ++ t = gap ++ (t ++ []) := by rw [List.append_nil]
    rw [hText]
    exact .cons hGaps .nil
  | next t hBetween _ ih => exact .cons hGaps (ih hBetween)

/-- Spaced tokens are a gap and then written tokens, when there are any. -/
theorem Spaced.written (h : Spaced ts m) (hSome : ts ≠ []) :
    ∃ gap s, Gaps gap ∧ Written ts s ∧ m = gap ++ s := by
  induction h with
  | nil => exact absurd rfl hSome
  | @cons gap t s ts hGaps hTokens ih =>
    cases ts with
    | nil =>
      obtain rfl := spaced_nil_iff.mp hTokens
      exact ⟨gap, t, hGaps, .last t, by rw [List.append_nil]⟩
    | cons u us =>
      obtain ⟨between, s', hBetween, hWritten, rfl⟩ := ih (by simp)
      exact ⟨gap, _, hGaps, .next t hBetween hWritten, rfl⟩

/-- A condition starts with a variable or a bracket. -/
theorem Tree.tokens_eq (e : Tree) :
    ∃ c t ts, e.tokens = (c :: t) :: ts ∧ isGap c = false ∧ c ∉ stopChars := by
  induction e with
  | comparison single =>
    obtain ⟨c, t, hVar, hc⟩ := exists_of_matches_var single.isVar
    refine ⟨c, t, _, by rw [Tree.tokens, Single.tokens, hVar], ?_⟩
    rcases hc with rfl | rfl
    · decide
    · decide
  | joined left connective right ihLeft _ =>
    obtain ⟨c, t, ts, hTokens, hc⟩ := ihLeft
    -- a joined tree begins with what its left side begins with
    exact ⟨c, t, ts ++ connective.text :: right.tokens, by rw [Tree.tokens, hTokens]; rfl, hc⟩
  | bracketed inner _ => exact ⟨'(', [], _, rfl, by decide⟩

/-- A writing of a tree is its spaced tokens with a gap after them. -/
theorem Tree.isWriting_iff {e : Tree} :
    e.IsWriting s ↔ ∃ m after, Spaced e.tokens m ∧ Gaps after ∧ s = m ++ after := by
  constructor
  · rintro ⟨before, text, after, hBefore, hText, hAfter, rfl⟩
    exact ⟨before ++ text, after, hText.spaced hBefore, hAfter, (List.append_assoc ..).symm⟩
  · rintro ⟨m, after, hTokens, hAfter, rfl⟩
    obtain ⟨c, t, ts, hEq, -⟩ := e.tokens_eq
    obtain ⟨before, text, hBefore, hText, rfl⟩ := hTokens.written (by simp [hEq])
    exact ⟨before, text, after, hBefore, hText, hAfter, List.append_assoc ..⟩

/-- One space between tokens. -/
theorem gaps_space : Gaps [' '] := by
  intro c hc
  rw [List.mem_singleton.mp hc]
  rfl

/-- Gaps in front of a token are as good as no gaps. -/
theorem Spaced.behind_gaps (hGaps : Gaps gap) (h : Spaced (t :: ts) m) :
    Spaced (t :: ts) (gap ++ m) := by
  obtain ⟨gap', s, hGaps', hTokens, rfl⟩ := spaced_cons_iff.mp h
  have hAll : gap ++ (gap' ++ (t ++ s)) = gap ++ gap' ++ (t ++ s) := (List.append_assoc ..).symm
  rw [hAll]
  exact .cons (hGaps.append hGaps') hTokens

/-- Two conditions are joined by a connective between spaces. -/
theorem Tree.IsWriting.join {e e' : Tree} (h : e.IsWriting s) (h' : e'.IsWriting t)
    (op : Connective) : (Tree.joined e op e').IsWriting (s ++ ' ' :: (op.text ++ ' ' :: t)) := by
  obtain ⟨m, gap, hLeft, hGap, rfl⟩ := Tree.isWriting_iff.mp h
  obtain ⟨m', gap', hRight, hGap', rfl⟩ := Tree.isWriting_iff.mp h'
  refine Tree.isWriting_iff.mpr
    ⟨m ++ (gap ++ [' '] ++ (op.text ++ ([' '] ++ m'))), gap', ?_, hGap', by simp⟩
  obtain ⟨c, u, us, hTokens, -⟩ := e'.tokens_eq
  have hBehind : Spaced e'.tokens ([' '] ++ m') := by
    rw [hTokens] at hRight ⊢
    exact hRight.behind_gaps gaps_space
  exact hLeft.append (.cons (hGap.append gaps_space) hBehind)

/-- Brackets around a writing write the bracketed tree. -/
theorem Tree.IsWriting.bracket {e : Tree} (h : e.IsWriting s) :
    (Tree.bracketed e).IsWriting ('(' :: (s ++ [')'])) := by
  obtain ⟨m, gap, hTokens, hGap, rfl⟩ := Tree.isWriting_iff.mp h
  refine Tree.isWriting_iff.mpr
    ⟨[] ++ (['('] ++ (m ++ (gap ++ ([')'] ++ [])))), [], ?_, gaps_nil, by simp⟩
  exact .cons gaps_nil (hTokens.append (.cons hGap .nil))

-- ---------------------------------------------------------------------------
-- Every writing is read
-- ---------------------------------------------------------------------------

/-- Behind gaps stands a gap or what comes after all of them. -/
theorem head_gaps_append {P : Char → Prop} (hGaps : Gaps gap) (hGap : ∀ d ∈ gapChars, P d)
    (hRest : ∀ d ∈ rest.head?, P d) : ∀ d ∈ (gap ++ rest).head?, P d := by
  cases gap with
  | nil => exact hRest
  | cons c gap =>
    rintro d ⟨⟩
    exact hGap c (isGap_iff.mp (hGaps c List.mem_cons_self))

/-- What stops a token after a gap stops it before the gap. -/
theorem stops_of_gaps (hGaps : Gaps gap) (h : Stops rest) : Stops (gap ++ rest) :=
  head_gaps_append hGaps (by simp [gapChars, stopChars]) h

theorem stops_gaps (hGaps : Gaps gap) : Stops gap := by
  have hNothing : Stops [] := by
    rintro d ⟨⟩
  have hAll := stops_of_gaps hGaps hNothing
  rwa [List.append_nil] at hAll

/-- A connective, with a gap before it or none, stops every token. -/
theorem stops_connective (hGaps : Gaps gap) (op : Connective) (s : List Char) :
    Stops (gap ++ (op.text ++ s)) := by
  refine stops_of_gaps hGaps ?_
  cases op <;>
    · rintro d ⟨⟩
      decide

theorem Operator.matches_text (op : Operator) : Matches Token.comparator op.text := by
  have hAll : Token.comparator.accepts op.text = true := by
    cases op <;> decide
  exact accepts_iff.mp hAll

theorem Connective.matches_text (op : Connective) : Matches Token.connective op.text := by
  have hAll : Token.connective.accepts op.text = true := by
    cases op <;> decide
  exact accepts_iff.mp hAll

/-- Each token of a comparison ends where the next one or a gap starts. -/
theorem Single.longest (single : Single) {between after : List Char} (hBetween : Gaps between)
    (hAfter : Gaps after) (hStops : Stops rest) :
    Longest Token.var single.var
        (between ++ (single.operator.text ++ (after ++ (single.value ++ rest)))) ∧
      Longest Token.comparator single.operator.text (after ++ (single.value ++ rest)) ∧
      Longest comparedValue single.value rest := by
  have hGap : ∀ d ∈ gapChars, d ∈ gapChars ++ operatorChars := fun d hd =>
    List.mem_append_left _ hd
  have hNotOperator : ∀ d ∈ gapChars, d ∉ operatorChars := by simp [gapChars, operatorChars]
  refine ⟨longest_var single.isVar (head_gaps_append hBetween hGap ?_),
    longest_comparator single.operator.matches_text (head_gaps_append hAfter hNotOperator ?_),
    longest_value single.isValue hStops⟩
  · -- an operator starts with neither a gap nor a letter, a value with no operator
    cases single.operator <;>
      · rintro d ⟨⟩
        decide
  · obtain ⟨c, v, hValue⟩ := cons_of_matches single.isValue rfl
    rw [hValue]
    rintro d ⟨⟩
    exact not_mem_of_avoidsStart (hValue ▸ single.isValue) (by decide)

/-- A comparison is read as a whole, whatever gaps stand in it. -/
theorem comparison?_of_spaced {single : Single} (h : Spaced single.tokens m)
    (hStops : Stops rest) : comparison? (m ++ rest) = some rest := by
  obtain ⟨g, _, hGaps, hAfterVar, rfl⟩ := spaced_cons_iff.mp h
  obtain ⟨g', _, hGaps', hAfterOperator, rfl⟩ := spaced_cons_iff.mp hAfterVar
  obtain ⟨g'', _, hGaps'', hAfterValue, rfl⟩ := spaced_cons_iff.mp hAfterOperator
  obtain rfl := spaced_nil_iff.mp hAfterValue
  obtain ⟨hVar, hComparator, hValue⟩ := single.longest hGaps' hGaps'' hStops
  simp only [List.append_assoc, List.append_nil]
  rw [comparison?, token?_eq_some hGaps hVar rfl (by decide)]
  change (token? _ _).bind _ = _
  rw [token?_eq_some hGaps' hComparator rfl (by decide)]
  exact token?_eq_some hGaps'' hValue rfl (by decide)

/-- No comparison starts with a bracket. -/
theorem comparison?_bracket (hGaps : Gaps gap) (s : List Char) :
    comparison? (gap ++ '(' :: s) = none := by
  rw [comparison?, token?_gaps_cons hGaps (by decide) (by decide) rfl]
  rfl

/-- Nothing is joined to a condition in front of a closing bracket. -/
theorem stops_bracket (hGaps : Gaps gap) (rest : List Char) :
    Stops (gap ++ ([')'] ++ rest)) ∧ token? Token.connective (gap ++ ([')'] ++ rest)) = none := by
  refine ⟨stops_of_gaps hGaps ?_, token?_gaps_cons hGaps (by decide) (by decide) rfl rest⟩
  rintro d ⟨⟩
  decide

/-- A bracket that opens leads to what stands behind it. -/
theorem token?_open (hGaps : Gaps gap) (rest : List Char) :
    token? (char '(') (gap ++ (['('] ++ rest)) = some rest :=
  token?_eq_some hGaps (longest_char '(' _) rfl (by decide)

/-- Without a limit there is room for everything. -/
theorem Room.holds_none (n : Nat) : Room.Holds none n := nofun

theorem Room.holds_some_iff {n k : Nat} : Room.Holds (some k) n ↔ n ≤ k := by
  simp [Room.Holds]

/-- A bracket can be gone into if there is room for it and for all that stands in it. -/
theorem Room.Holds.enter {room : Room} {n : Nat} (h : room.Holds (n + 1)) :
    ∃ inside, room.enter = .ok inside ∧ inside.Holds n := by
  match room with
  | none => exact ⟨none, rfl, Room.holds_none n⟩
  | some 0 => exact absurd (Room.holds_some_iff.mp h) (Nat.not_succ_le_zero n)
  | some (k + 1) =>
    exact ⟨some k, rfl, Room.holds_some_iff.mpr (Nat.le_of_succ_le_succ (Room.holds_some_iff.mp h))⟩

/-- How a bracket is read is told by how the condition in it is read. -/
theorem restAfter_open {room : Room} (hGaps : Gaps gap) (s : List Char) :
    restAfter room .operand (gap ++ (['('] ++ s)) = room.enter >>= fun inside =>
      restAfter inside .expression s >>= fun t => expect (token? (char ')') t) := by
  have hNone : comparison? (gap ++ (['('] ++ s)) = none := comparison?_bracket hGaps s
  rw [restAfter_operand hNone, token?_open hGaps]
  rfl

/-- A condition in brackets is read as a whole if the condition is read up to the bracket. -/
theorem restAfter_bracketed {room inside : Room} {close inner : List Char} (hGaps : Gaps gap)
    (hClose : Gaps close) (hInside : room.enter = .ok inside)
    (hInner : restAfter inside .expression (inner ++ (close ++ ([')'] ++ rest))) =
      restAfter inside .joined (close ++ ([')'] ++ rest))) :
    restAfter room .operand (gap ++ (['('] ++ (inner ++ (close ++ ([')'] ++ rest))))) =
      .ok rest := by
  have hClosed : token? (char ')') (close ++ ([')'] ++ rest)) = some rest :=
    token?_eq_some hClose (longest_char ')' rest) rfl (by decide)
  rw [restAfter_open hGaps, hInside, ok_bind, hInner,
    restAfter_joined_none (stops_bracket hClose rest).2, ok_bind, hClosed]
  rfl

/-- Behind a connective an expression is read, if one stands there. -/
theorem restAfter_joined_of_expression {room : Room} (h : token? Token.connective s = some t)
    (hRead : restAfter room .expression t ≠ .error .mismatch) :
    restAfter room .joined s = restAfter room .expression t := by
  rw [restAfter_expression] at hRead ⊢
  rw [restAfter_joined, h, expect, ok_bind]
  cases hOperand : restAfter room .operand t with
  | ok rest => rfl
  | error e =>
    cases e with
    | mismatch => exact absurd (by rw [hOperand]; rfl) hRead
    | depth => rfl

/-- A connective leads to what stands behind it. -/
theorem token?_connective (hGaps : Gaps gap) (op : Connective) (rest : List Char) :
    token? Token.connective (gap ++ (op.text ++ rest)) = some rest :=
  token?_eq_some hGaps (longest_connective op.matches_text _) rfl (by decide)

/-- A writing for which there is room is read up to its end, and what stands there is read on. -/
theorem restAfter_of_spaced {room : Room} {e : Tree} (hRoom : room.Holds e.depth)
    (h : Spaced e.tokens m) (hStops : Stops rest) :
    restAfter room .expression (m ++ rest) = restAfter room .joined rest := by
  induction e generalizing room m rest with
  | comparison single =>
    have hTokens : Spaced single.tokens m := h
    have hRead := comparison?_of_spaced hTokens hStops
    rw [restAfter_expression, restAfter_comparison hRead]
    rfl
  | bracketed inner ih =>
    obtain ⟨g, _, hGaps, hAfterOpen, rfl⟩ := spaced_cons_iff.mp h
    obtain ⟨s, _, hInner, hClose, rfl⟩ := spaced_append_iff.mp hAfterOpen
    obtain ⟨g', _, hGaps', hAfterClose, rfl⟩ := spaced_cons_iff.mp hClose
    obtain rfl := spaced_nil_iff.mp hAfterClose
    obtain ⟨inside, hInside, hHolds⟩ := Room.Holds.enter hRoom
    simp only [List.append_assoc, List.append_nil]
    have hRead := ih hHolds hInner (stops_bracket hGaps' rest).1
    rw [restAfter_expression, restAfter_bracketed hGaps hGaps' hInside hRead]
    rfl
  | joined left op right ihLeft ihRight =>
    obtain ⟨s, _, hLeft, hJoined, rfl⟩ := spaced_append_iff.mp h
    obtain ⟨g, s', hGaps, hRight, rfl⟩ := spaced_cons_iff.mp hJoined
    have hRoomLeft : room.Holds left.depth := fun n hn =>
      Nat.le_trans (Nat.le_max_left ..) (hRoom n hn)
    have hRoomRight : room.Holds right.depth := fun n hn =>
      Nat.le_trans (Nat.le_max_right ..) (hRoom n hn)
    simp only [List.append_assoc]
    rw [ihLeft hRoomLeft hLeft (stops_connective hGaps op _)]
    -- the condition on the right is an operand with something joined to it
    have hRead := ihRight hRoomRight hRight hStops
    rw [restAfter_joined_of_expression (token?_connective hGaps op _)
      (hRead ▸ restAfter_joined_ne_mismatch room rest), hRead]

/-- A writing that is deeper than there is room for is not read to its end. -/
theorem restAfter_tooDeep {e : Tree} {n : Nat} (hDeep : n < e.depth) (h : Spaced e.tokens m)
    (hStops : Stops rest) : restAfter (some n) .expression (m ++ rest) = .error .depth := by
  -- induction on the tree, with the room left at its place: a bracket takes one level of it
  induction e generalizing n m rest with
  | comparison single => exact absurd hDeep (Nat.not_lt_zero n)
  | bracketed inner ih =>
    obtain ⟨g, _, hGaps, hAfterOpen, rfl⟩ := spaced_cons_iff.mp h
    obtain ⟨s, _, hInner, hClose, rfl⟩ := spaced_append_iff.mp hAfterOpen
    obtain ⟨g', _, hGaps', hAfterClose, rfl⟩ := spaced_cons_iff.mp hClose
    obtain rfl := spaced_nil_iff.mp hAfterClose
    simp only [List.append_assoc, List.append_nil]
    rw [restAfter_expression, restAfter_open hGaps]
    cases n with
    | zero => rfl
    | succ n =>
      have hRead := ih (Nat.lt_of_succ_lt_succ hDeep) hInner (stops_bracket hGaps' rest).1
      rw [Room.enter, ok_bind, hRead]
      rfl
  | joined left op right ihLeft ihRight =>
    obtain ⟨s, _, hLeft, hJoined, rfl⟩ := spaced_append_iff.mp h
    obtain ⟨g, s', hGaps, hRight, rfl⟩ := spaced_cons_iff.mp hJoined
    simp only [List.append_assoc]
    have hStopsLeft := stops_connective hGaps op (s' ++ rest)
    by_cases hLeftDeep : n < left.depth
    · -- too deep on the left stops the reader there, else it is read and the right side stops it
      exact ihLeft hLeftDeep hLeft hStopsLeft
    · have hRightDeep : n < right.depth := by
        rw [Tree.depth] at hDeep
        omega
      have hRead := ihRight hRightDeep hRight hStops
      rw [restAfter_of_spaced (Room.holds_some_iff.mpr (Nat.not_lt.mp hLeftDeep)) hLeft hStopsLeft,
        restAfter_joined_of_expression (token?_connective hGaps op _) (by rw [hRead]; nofun), hRead]

/-- What starts with the writing of a condition is one comparison only if the condition is. -/
theorem ends_comparison?_of_spaced {e : Tree} (h : Spaced e.tokens m) (hStops : Stops rest) :
    ends (expect (comparison? (m ++ rest))) = (e.isSingle && rest.all isGap) := by
  induction e generalizing m rest with
  | comparison single =>
    have hTokens : Spaced single.tokens m := h
    rw [comparison?_of_spaced hTokens hStops]
    rfl
  | bracketed inner _ =>
    obtain ⟨g, s, hGaps, -, rfl⟩ := spaced_cons_iff.mp h
    have hText : g ++ (['('] ++ s) ++ rest = g ++ '(' :: (s ++ rest) := by simp
    rw [hText, comparison?_bracket hGaps]
    rfl
  -- the connective is no gap, so the text does not end behind the left side
  | joined left op right ihLeft _ =>
    obtain ⟨s, _, hLeft, hJoined, rfl⟩ := spaced_append_iff.mp h
    obtain ⟨g, s', hGaps, hRight, rfl⟩ := spaced_cons_iff.mp hJoined
    simp only [List.append_assoc]
    have hNotGaps : (g ++ (op.text ++ (s' ++ rest))).all isGap = false := by
      obtain ⟨c, hMem, hc⟩ : ∃ c ∈ op.text, isGap c = false := by
        cases op with
        | and => exact ⟨'&', List.mem_cons_self, rfl⟩
        | or => exact ⟨'|', List.mem_cons_self, rfl⟩
      exact not_gaps_of_mem hc (by simp [hMem])
    rw [ihLeft hLeft (stops_connective hGaps op _), hNotGaps, Bool.and_false]
    rfl

/-- Whether a writing of a condition is a comparison. -/
theorem Tree.IsWriting.isComparison_eq {e : Tree} (h : e.IsWriting s) :
    isComparison s = e.isSingle := by
  obtain ⟨m, after, hTokens, hAfter, rfl⟩ := Tree.isWriting_iff.mp h
  have hAll : after.all isGap = true := List.all_eq_true.mpr hAfter
  rw [isComparison, ends_comparison?_of_spaced hTokens (stops_gaps hAfter), hAll, Bool.and_true]

/-- A writing of a condition is an expression, wherever there is room for it. -/
theorem Tree.IsWriting.ends_expression {room : Room} {e : Tree} (h : e.IsWriting s)
    (hRoom : room.Holds e.depth) : ∃ rest, restAfter room .expression s = .ok rest ∧ Gaps rest := by
  obtain ⟨m, after, hTokens, hAfter, rfl⟩ := Tree.isWriting_iff.mp h
  refine ⟨after, ?_, hAfter⟩
  rw [restAfter_of_spaced hRoom hTokens (stops_gaps hAfter),
    restAfter_joined_none (token?_gaps hAfter rfl)]

/-- A writing of a condition is one of these only: a comparison or an expression of another kind. -/
theorem Tree.IsWriting.isNestedComparison_eq {e : Tree} (h : e.IsWriting s) :
    isNestedComparison s = !e.isSingle := by
  obtain ⟨rest, hRead, hGaps⟩ := h.ends_expression (Room.holds_none _)
  rw [isNestedComparison, hRead, ends, List.all_eq_true.mpr hGaps, h.isComparison_eq, Bool.true_and]

/-- So it is found to be within any limit that its brackets keep. -/
theorem Tree.IsWriting.nestedWithin_eq {limit : Nat} {e : Tree} (h : e.IsWriting s)
    (hDepth : e.depth ≤ limit + 1) : nestedWithin limit s = .ok !e.isSingle := by
  obtain ⟨rest, hRead, hGaps⟩ := h.ends_expression (Room.holds_some_iff.mpr hDepth)
  rw [nestedWithin, hRead]
  change Except.ok (rest.all isGap && !isComparison s) = _
  rw [List.all_eq_true.mpr hGaps, h.isComparison_eq, Bool.true_and]

/-- Nothing is found of a writing with brackets beyond the limit. -/
theorem Tree.IsWriting.nestedWithin_tooDeep {limit : Nat} {e : Tree} (h : e.IsWriting s)
    (hDeep : limit + 1 < e.depth) : nestedWithin limit s = .error .tooDeep := by
  obtain ⟨m, after, hTokens, hAfter, rfl⟩ := Tree.isWriting_iff.mp h
  rw [nestedWithin, restAfter_tooDeep hDeep hTokens (stops_gaps hAfter)]

-- ---------------------------------------------------------------------------
-- What is read is a writing
-- ---------------------------------------------------------------------------

/-- The pattern of comparators accepts the operators' texts alone. -/
theorem exists_operator (h : Matches Token.comparator t) : ∃ op : Operator, op.text = t := by
  -- one case for each way to write a comparator, longest first as the alternatives stand
  rcases matches_alt_iff.mp h with h | h
  · rcases matches_alt_iff.mp h with h | h
    · rcases matches_alt_iff.mp h with h | h
      · rcases matches_alt_iff.mp h with h | h
        · rcases matches_alt_iff.mp h with h | h
          · exact ⟨.atMost, (eq_of_matches_word h).symm⟩
          · exact ⟨.atLeast, (eq_of_matches_word h).symm⟩
        · exact ⟨.unequal, (eq_of_matches_word h).symm⟩
      · exact ⟨.equal, (eq_of_matches_word (w := ['=']) h).symm⟩
    · exact ⟨.less, (eq_of_matches_word (w := ['<']) h).symm⟩
  · exact ⟨.greater, (eq_of_matches_word (w := ['>']) h).symm⟩

/-- The pattern of connectives accepts the connectives' texts alone. -/
theorem exists_connective (h : Matches Token.connective t) : ∃ op : Connective, op.text = t := by
  rcases matches_alt_iff.mp h with h | h
  · exact ⟨.or, (eq_of_matches_word h).symm⟩
  · exact ⟨.and, (eq_of_matches_word h).symm⟩

/-- A token that was read is the last of a row of tokens. -/
theorem spaced_of_token? {p : Pattern} (h : token? p s = some rest) :
    ∃ m t, s = m ++ rest ∧ Spaced [t] m ∧ Matches p t := by
  obtain ⟨gap, t, rfl, hGaps, hText⟩ := exists_of_token? h
  refine ⟨gap ++ (t ++ []), t, by simp, .cons hGaps .nil, hText⟩

/-- What the reader takes for a single comparison is the spaced tokens of one. -/
theorem exists_of_comparison? (h : comparison? s = some rest) :
    ∃ (single : Single) (m : List Char), s = m ++ rest ∧ Spaced single.tokens m := by
  obtain ⟨r, hVar, h⟩ := Option.bind_eq_some_iff.mp h
  obtain ⟨r', hOperator, hValue⟩ := Option.bind_eq_some_iff.mp h
  obtain ⟨m, x, rfl, hVarSpaced, hVarText⟩ := spaced_of_token? hVar
  obtain ⟨m', o, rfl, hOperatorSpaced, hOperatorText⟩ := spaced_of_token? hOperator
  obtain ⟨m'', v, rfl, hValueSpaced, hValueText⟩ := spaced_of_token? hValue
  obtain ⟨op, rfl⟩ := exists_operator hOperatorText
  refine ⟨⟨x, op, v, hVarText, hValueText⟩, m ++ (m' ++ m''), by simp only [List.append_assoc], ?_⟩
  exact hVarSpaced.append (hOperatorSpaced.append hValueSpaced)

/-- What the reader has taken of a text: a condition, or what can be joined to any condition. -/
def Reads (part : Part) (ts : List (List Char)) : Prop :=
  match part with
  | .operand | .expression => ∃ e : Tree, e.tokens = ts
  | .joined => ∀ e : Tree, ∃ e' : Tree, e'.tokens = e.tokens ++ ts

/-- A derivation spaces the tokens of a tree: by induction on the derivation, one case per rule of
the grammar. -/
theorem exists_of_takes {room : Room} {part : Part} (h : Takes room part s rest) :
    ∃ ts m, s = m ++ rest ∧ Spaced ts m ∧ Reads part ts := by
  induction h with
  | comparison hComparison =>
    obtain ⟨single, m, rfl, hSpaced⟩ := exists_of_comparison? hComparison
    exact ⟨_, m, rfl, hSpaced, .comparison single, rfl⟩
  | bracket _ hOpen _ _ hClose ih =>
    obtain ⟨m, o, rfl, hOpenSpaced, hOpenText⟩ := spaced_of_token? hOpen
    obtain ⟨_, m', rfl, hInnerSpaced, e, rfl⟩ := ih
    obtain ⟨m'', c, rfl, hCloseSpaced, hCloseText⟩ := spaced_of_token? hClose
    obtain rfl := eq_of_matches_word (w := ['(']) hOpenText
    obtain rfl := eq_of_matches_word (w := [')']) hCloseText
    refine ⟨_, m ++ (m' ++ m''), by simp only [List.append_assoc], ?_, .bracketed e, rfl⟩
    exact hOpenSpaced.append (hInnerSpaced.append hCloseSpaced)
  | expression _ _ ihOperand ihJoined =>
    obtain ⟨_, m, rfl, hSpaced, e, rfl⟩ := ihOperand
    obtain ⟨ts, m', rfl, hSpaced', hReads⟩ := ihJoined
    obtain ⟨e', he'⟩ := hReads e
    exact ⟨_, m ++ m', by rw [List.append_assoc], hSpaced.append hSpaced', e', he'⟩
  | more hConnective _ _ ihOperand ihJoined =>
    obtain ⟨m, o, rfl, hOpSpaced, hOpText⟩ := spaced_of_token? hConnective
    obtain ⟨op, rfl⟩ := exists_connective hOpText
    obtain ⟨_, m', rfl, hSpaced, right, rfl⟩ := ihOperand
    obtain ⟨ts, m'', rfl, hSpaced', hReads⟩ := ihJoined
    refine ⟨op.text :: (right.tokens ++ ts), m ++ (m' ++ m''),
      by simp only [List.append_assoc], hOpSpaced.append (hSpaced.append hSpaced'),
      fun left => ?_⟩
    -- what was joined so far stands to the left of what is joined next
    obtain ⟨e', he'⟩ := hReads (.joined left op right)
    exact ⟨e', by simp [he', Tree.tokens]⟩
  | done => exact ⟨[], [], rfl, .nil, fun e => ⟨e, (List.append_nil _).symm⟩⟩

/-- An accepted condition is a writing of a tree. -/
theorem exists_of_isComparison (h : isComparison s = true) : ∃ e : Tree, e.IsWriting s := by
  cases hRead : comparison? s with
  | none =>
    rw [isComparison, hRead] at h
    cases h
  | some rest =>
    rw [isComparison, hRead] at h
    obtain ⟨single, m, rfl, hSpaced⟩ := exists_of_comparison? hRead
    exact ⟨.comparison single,
      Tree.isWriting_iff.mpr ⟨m, rest, hSpaced, List.all_eq_true.mp h, rfl⟩⟩

/-- The same for the condition that starts with a bracket. -/
theorem exists_of_isNestedComparison (h : isNestedComparison s = true) :
    ∃ e : Tree, e.IsWriting s := by
  obtain ⟨hEnds, -⟩ := Bool.and_eq_true_iff.mp h
  cases hRead : restAfter none .expression s with
  | error e =>
    rw [hRead] at hEnds
    cases hEnds
  | ok rest =>
    rw [hRead] at hEnds
    obtain ⟨_, m, rfl, hSpaced, e, rfl⟩ := exists_of_takes (takes_of_restAfter hRead)
    exact ⟨e, Tree.isWriting_iff.mpr ⟨m, rest, hSpaced, List.all_eq_true.mp hEnds, rfl⟩⟩

/-- What is accepted within a limit writes a condition whose brackets keep the limit. -/
theorem exists_of_nestedWithin {limit : Nat} (h : nestedWithin limit s = .ok true) :
    ∃ e : Tree, e.isSingle = false ∧ e.depth ≤ limit + 1 ∧ e.IsWriting s := by
  have hNested : isNestedComparison s = true := by
    rcases nestedWithin_cases limit s with hOk | ⟨hError, -⟩
    · exact Except.ok.inj (hOk.symm.trans h)
    · cases hError.symm.trans h
  obtain ⟨e, hWriting⟩ := exists_of_isNestedComparison hNested
  have hOther : (!e.isSingle) = true := hWriting.isNestedComparison_eq.symm.trans hNested
  refine ⟨e, by simpa using hOther, Nat.not_lt.mp fun hDeep => ?_, hWriting⟩
  cases h.symm.trans (hWriting.nestedWithin_tooDeep hDeep)

end

end Comparison

-- ---------------------------------------------------------------------------
-- The language
-- ---------------------------------------------------------------------------

open Comparison

/-- A token may stand directly in front of others. -/
theorem Comparison.Written.beside {ts : List (List Char)} {s : List Char} (h : Written ts s)
    (t : List Char) : Written (t :: ts) (t ++ s) := .next t gaps_nil h

/-- Two rows of tokens can stand next to each other. -/
theorem Comparison.Written.append {ts us : List (List Char)} {s t : List Char} (h : Written ts s)
    (h' : Written us t) : Written (ts ++ us) (s ++ t) := by
  induction h with
  | last u => exact h'.beside u
  | @next u gap ts s hGaps _ ih =>
    simp only [List.append_assoc, List.cons_append]
    exact .next u hGaps ih

end SparqlSelect
