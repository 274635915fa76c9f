import SparqlSelect.Proofs.Fragment.Brackets

/-!
# Nested brackets

Brackets are counted from left to right: a text is balanced if none is closed that is not open, and
none is left open. That is what a grammar says about the brackets alone: a word of brackets is
empty, or it is a bracket, a word, the closing bracket and another word.

* `BracketWord` — the words of the grammar.
* `Closing` — what closes so many brackets: words with a closing bracket behind each but the last.
* `closing_of_closes` — a text that is counted to the end closes the brackets that were open.
* `bracketsBalanced_iff_word` — the count and the grammar agree.
-/

namespace SparqlSelect

/-- Words of brackets: nothing, or a word in brackets with a word behind it. -/
inductive BracketWord : List Char → Prop
  | empty : BracketWord []
  | bracket {inner rest : List Char} (hInner : BracketWord inner) (hRest : BracketWord rest) :
      BracketWord ('(' :: (inner ++ ')' :: rest))

/-- Brackets that close so many open ones: a word, then for each of them its closing bracket and
another word. -/
inductive Closing : Nat → List Char → Prop
  | word {w : List Char} (hWord : BracketWord w) : Closing 0 w
  | close {depth : Nat} {w rest : List Char} (hWord : BracketWord w) (hRest : Closing depth rest) :
      Closing (depth + 1) (w ++ ')' :: rest)

/-- A word changes nothing about how many brackets are open. -/
theorem BracketWord.closes_append {w : List Char} (h : BracketWord w) (depth : Nat)
    (rest : List Char) : closes depth (w ++ rest) = closes depth rest := by
  induction h generalizing depth rest with
  | empty => rfl
  | @bracket inner after _ _ ihInner ihAfter =>
    calc closes depth ('(' :: (inner ++ ')' :: after) ++ rest)
        = closes (depth + 1) (inner ++ (')' :: (after ++ rest))) := by simp [closes]
      _ = closes (depth + 1) (')' :: (after ++ rest)) := ihInner _ _
      _ = closes depth (after ++ rest) := rfl
      _ = closes depth rest := ihAfter _ _

/-- With an opening bracket in front, one bracket less has to be open. -/
theorem Closing.openBracket {depth : Nat} {s : List Char} (h : Closing (depth + 1) s) :
    Closing depth ('(' :: s) := by
  cases h with
  | @close _ w rest hWord hRest =>
    cases hRest with
    | word hLast => exact .word (.bracket hWord hLast)
    | @close depth next rest hNext hRest =>
      -- the bracket that is opened and its closing one belong to the first word
      have hFirst := Closing.close (.bracket hWord hNext) hRest
      rwa [List.cons_append, List.append_assoc, List.cons_append] at hFirst

/-- If the count of a text comes to its end, the brackets in it close those that were open. -/
theorem closing_of_closes {depth : Nat} {s : List Char} (h : closes depth s = true) :
    Closing depth (s.filter isRound) := by
  -- induction on the text: an opening bracket adds a level, a closing one ends the word inside
  induction s generalizing depth with
  | nil =>
    obtain rfl : depth = 0 := by simpa [closes] using h
    exact .word .empty
  | cons c s ih =>
    by_cases hOpen : c = '('
    · subst hOpen
      have hInside : Closing (depth + 1) (s.filter isRound) := ih h
      exact hInside.openBracket
    by_cases hClose : c = ')'
    · subst hClose
      cases depth with
      | zero => cases h
      | succ depth =>
        have hOutside : Closing depth (s.filter isRound) := ih h
        exact .close .empty hOutside
    rw [List.filter_cons_of_neg (by simp [isRound, hOpen, hClose])]
    exact ih (by simpa [closes, hOpen, hClose] using h)

/-- **Balanced brackets.** The brackets of a text are balanced exactly if those that are left once
its literals are masked, all other characters being dropped, are a word of the grammar. -/
theorem bracketsBalanced_iff_word (s : List Char) :
    bracketsBalanced s = true ↔
      BracketWord ((maskLiterals s).filter fun c => c == '(' || c == ')') := by
  change closes 0 (maskLiterals s) = true ↔ BracketWord ((maskLiterals s).filter isRound)
  constructor
  · intro h
    cases closing_of_closes h with
    | word hWord => exact hWord
  · intro h
    have hCount := h.closes_append 0 []
    rw [List.append_nil, closes_filter] at hCount
    exact hCount

end SparqlSelect
