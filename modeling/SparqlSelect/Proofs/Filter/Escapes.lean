import SparqlSelect.Proofs.Filter.Conditions

/-!
# Escaping loses nothing

The text of a value is put between double quotes character by character, five characters as a
backslash and a letter or a mark. Taking the escapes off again gives the text back, since each of
them is told from a plain character by its backslash, and a backslash is itself escaped. For the
same reason no quote of the text can be taken for the one that closes the literal.

* `decoded?` — what the inside of a literal stands for.
* `decoded?_escapeText` — it is the text that was escaped.
* `escapeText_lossless` — the literal of any text, how far it is read, and what it is read as.
-/

namespace SparqlSelect

open Pattern

/-- The character that an escape means, told from the one behind its backslash. -/
def escaped? : Char → Option Char
  | '\\' => some '\\'
  | '"' => some '"'
  | 'n' => some '\n'
  | 'r' => some '\r'
  | 't' => some '\t'
  | _ => none

/-- The text that the inside of a literal in double quotes stands for. There is none if a quote
stands in it without a backslash, or a backslash without one of the five escapes. -/
def decoded? : List Char → Option (List Char)
  | [] => some []
  | ['\\'] => none
  | '\\' :: c :: rest => (escaped? c).bind fun d => (decoded? rest).map (d :: ·)
  | c :: rest => if c == '"' then none else (decoded? rest).map (c :: ·)

section

variable {c d : Char} {s : List Char}

theorem decoded?_escape (h : escaped? c = some d) (s : List Char) :
    decoded? ('\\' :: c :: s) = (decoded? s).map (d :: ·) := by
  rw [decoded?, h, Option.bind_some]

theorem decoded?_plain (hBackslash : c ≠ '\\') (hQuote : c ≠ '"') (s : List Char) :
    decoded? (c :: s) = (decoded? s).map (c :: ·) := by
  rw [decoded?.eq_4 _ _ (fun h => absurd h hBackslash) (fun _ _ h => absurd h hBackslash),
    if_neg (by simpa using hQuote)]

/-- What stands for one character is read as that character. -/
theorem decoded?_escapeChar (c : Char) (s : List Char) :
    decoded? (escapeChar c ++ s) = (decoded? s).map (c :: ·) := by
  rw [escapeChar.eq_def]
  split
  case h_6 hBackslash hQuote _ _ _ => exact decoded?_plain hBackslash hQuote s
  all_goals exact decoded?_escape rfl s

theorem decoded?_flatMap (s : List Char) : decoded? (s.flatMap escapeChar) = some s := by
  induction s with
  | nil => rfl
  | cons c s ih => rw [List.flatMap_cons, decoded?_escapeChar, ih, Option.map_some]

/-- Taking the escapes off gives back the text of the value. -/
theorem decoded?_escapeText (value : Json) :
    decoded? (escapeText value).toList = some value.display.toList := by
  rw [escapeText, String.toList_ofList, decoded?_flatMap]

/-- Values that are escaped to one text have one text. -/
theorem display_of_escapeText {value value' : Json} (h : escapeText value = escapeText value') :
    value.display = value'.display := by
  have hDecoded : some value.display.toList = some value'.display.toList := by
    rw [← decoded?_escapeText, ← decoded?_escapeText, h]
  exact String.toList_inj.mp (Option.some.inj hDecoded)

end

/-- Escaping is lossless: between double quotes an escaped text is a literal as a whole, no shorter
start of this is one, and taking the escapes off the inside gives the text back, so no two texts are
escaped alike. -/
theorem escapeText_lossless (v : String) :
    Token.text.accepts ('"' :: ((escapeText (.str v)).toList ++ ['"'])) = true ∧
      (∀ t rest, '"' :: ((escapeText (.str v)).toList ++ ['"']) = t ++ rest →
        Token.text.accepts t = true → rest = []) ∧
      decoded? (escapeText (.str v)).toList = some v.toList ∧
      ∀ w : String, escapeText (.str w) = escapeText (.str v) → w = v := by
  have hText := matches_text_literalOf (.str v)
  rw [toList_literalOf] at hText
  refine ⟨accepts_iff.mpr hText, fun t rest hSplit ht => ?_, decoded?_escapeText (.str v),
    fun w h => display_of_escapeText h⟩
  -- of two quoted texts with one beginning none is longer
  have hWhole : '"' :: ((escapeText (.str v)).toList ++ ['"']) ++ [] = t ++ rest := by
    rw [List.append_nil, hSplit]
  exact (text_inj hText (accepts_iff.mp ht) hWhole).2.symm

end SparqlSelect
