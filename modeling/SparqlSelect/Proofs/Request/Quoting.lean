import Mathlib.Algebra.Group.Nat.Defs
import Mathlib.Data.List.Basic
import SparqlSelect.Json.Display
import SparqlSelect.Json.Reader

/-!
# Names in quotes

The path of a spec quotes the name of its key. A name may hold quotes, brackets and dots, so a path
tells where it leads only because the name can be read off its start: every character is written in
a way that shows where it ends, and the closing quote is not written inside.

* `hexNumber_hexadecimal` — the number that some hexadecimal digits stand for.
* `firstQuoted?_quotedChar` — the first character of a quoted text.
* `quoted_append_inj` — quoted names with anything after them.
-/

namespace SparqlSelect

-- ---------------------------------------------------------------------------
-- Hexadecimal digits
-- ---------------------------------------------------------------------------

/-- The number that some hexadecimal digits stand for. -/
def hexNumber (s : List Char) : Nat :=
  s.foldl (fun n d => 16 * n + (JsonText.hexValue? d).getD 0) 0

/-- One more digit behind a number makes it sixteen times as much. -/
theorem hexNumber_concat (s : List Char) (d : Char) :
    hexNumber (s ++ [d]) = 16 * hexNumber s + (JsonText.hexValue? d).getD 0 := by
  rw [hexNumber, List.foldl_append]
  rfl

/-- A hexadecimal digit stands for the number that it is the digit of. -/
theorem hexValue?_digitChar : ∀ n < 16, JsonText.hexValue? n.digitChar = some n := by decide

/-- The digits of a number stand for it. -/
theorem hexNumber_toDigits (n : Nat) : hexNumber (Nat.toDigits 16 n) = n := by
  induction n using Nat.strongRecOn with
  | ind n ih =>
    rw [Nat.toDigits_eq_if (by decide)]
    split
    · rename_i hn
      change 16 * 0 + (JsonText.hexValue? n.digitChar).getD 0 = n
      rw [hexValue?_digitChar n hn, Option.getD_some]
      omega
    · rw [hexNumber_concat, ih (n / 16) (by omega), hexValue?_digitChar (n % 16) (by omega),
        Option.getD_some]
      omega

/-- Zeros in front change nothing. -/
theorem hexNumber_hexadecimal (width n : Nat) : hexNumber (hexadecimal width n) = n := by
  have hZeros (k : Nat) : hexNumber (List.replicate k '0') = 0 := by
    induction k with
    | zero => rfl
    | succ k ih =>
      rw [List.replicate_succ', hexNumber_concat, ih]
      rfl
  have hSplit := hexNumber_toDigits n
  rw [hexNumber] at hSplit
  rw [hexadecimal, hexNumber, List.foldl_append, ← hexNumber, hZeros]
  exact hSplit

/-- A number that fits into a width has as many digits. -/
theorem length_hexadecimal {width n : Nat} (hWidth : 0 < width) (h : n < 16 ^ width) :
    (hexadecimal width n).length = width := by
  have hDigits := (Nat.length_toDigits_le_iff (by decide) hWidth).mpr h
  rw [hexadecimal, List.length_append, List.length_replicate]
  omega

-- ---------------------------------------------------------------------------
-- Characters in quotes
-- ---------------------------------------------------------------------------

/-- The character of a number of so many hexadecimal digits, and what follows them. -/
def numberedChar (width : Nat) (s : List Char) : Char × List Char :=
  (Char.ofNat (hexNumber (s.take width)), s.drop width)

/-- The character that an escape stands for, after its backslash, and what follows. -/
def unescaped? : List Char → Option (Char × List Char)
  | [] => none
  | c :: rest =>
    if c = 'n' then some ('\n', rest)
    else if c = 'r' then some ('\r', rest)
    else if c = 't' then some ('\t', rest)
    else if c = 'x' then some (numberedChar 2 rest)
    else if c = 'u' then some (numberedChar 4 rest)
    else if c = 'U' then some (numberedChar 8 rest)
    else some (c, rest)

/-- The first character of what is written inside quotes, and what follows. -/
def firstQuoted? : List Char → Option (Char × List Char)
  | [] => none
  | c :: rest => if c = '\\' then unescaped? rest else some (c, rest)

/-- A character that is written by its number is read from the number. -/
theorem numberedChar_hexadecimal {width : Nat} {c : Char} (hWidth : 0 < width)
    (h : c.toNat < 16 ^ width) (s : List Char) :
    numberedChar width (hexadecimal width c.toNat ++ s) = (c, s) := by
  have hLength := length_hexadecimal hWidth h
  rw [numberedChar, List.take_left' hLength, List.drop_left' hLength, hexNumber_hexadecimal,
    Char.ofNat_toNat]

variable {quote : Char}

/-- The quotes that may stand around a text. -/
def IsQuote (quote : Char) : Prop := quote = '\'' ∨ quote = '"'

/-- Whichever quote is chosen for a text is one of the two. -/
theorem isQuote_quoteFor (s : List Char) : IsQuote (quoteFor s) := by
  unfold quoteFor
  split
  · exact .inr rfl
  · exact .inl rfl

/-- A character can be read off what it is written as. -/
theorem firstQuoted?_quotedChar (hQuote : IsQuote quote) (c : Char) (s : List Char) :
    firstQuoted? (quotedChar quote c ++ s) = some (c, s) := by
  -- one case for each way in which a character is written
  unfold quotedChar
  split
  · rename_i hSelf
    rw [Bool.or_eq_true, beq_iff_eq, beq_iff_eq] at hSelf
    rcases hSelf with rfl | rfl
    · rcases hQuote with rfl | rfl
      · rfl
      · rfl
    · rfl
  rename_i hOther
  rw [Bool.or_eq_true, beq_iff_eq, beq_iff_eq, not_or] at hOther
  split
  · rename_i hc
    rw [beq_iff_eq.mp hc]
    rfl
  split
  · rename_i hc
    rw [beq_iff_eq.mp hc]
    rfl
  split
  · rename_i hc
    rw [beq_iff_eq.mp hc]
    rfl
  split
  · exact if_neg hOther.2
  split
  · rename_i hSmall
    exact congrArg some (numberedChar_hexadecimal (by decide) hSmall s)
  split
  · rename_i hSmall
    exact congrArg some (numberedChar_hexadecimal (by decide) hSmall s)
  · have hSmall : c.toNat < 16 ^ 8 := by
      rcases c.valid with hLow | ⟨-, hHigh⟩
      · exact Nat.lt_trans hLow (by decide)
      · exact Nat.lt_trans hHigh (by decide)
    exact congrArg some (numberedChar_hexadecimal (by decide) hSmall s)

/-- No character is written as something that begins with the closing quote. -/
theorem quotedChar_append_ne (hQuote : IsQuote quote) (c : Char) (s t : List Char) :
    quotedChar quote c ++ s ≠ quote :: t := by
  intro hSame
  have hRead := firstQuoted?_quotedChar hQuote c s
  have hPlain : quote ≠ '\\' := by
    rcases hQuote with rfl | rfl
    · decide
    · decide
  rw [hSame, firstQuoted?, if_neg hPlain] at hRead
  cases hRead
  -- the quote itself is written with a backslash
  rw [quotedChar, if_pos (by rw [beq_self_eq_true, Bool.true_or])] at hSame
  exact hPlain (List.cons.inj hSame).1.symm

/-- Where a quoted text ends is told by its first quote that is not escaped, so there is one text
only that is quoted so. -/
theorem quotedBody_append_inj (hQuote : IsQuote quote) {s s' t t' : List Char}
    (h : s.flatMap (quotedChar quote) ++ quote :: t =
      s'.flatMap (quotedChar quote) ++ quote :: t') :
    s = s' ∧ t = t' := by
  -- induction on the first text: the character that is read first is the same in both
  induction s generalizing s' with
  | nil =>
    cases s' with
    | nil => exact ⟨rfl, (List.cons.inj h).2⟩
    | cons c s' =>
      rw [List.flatMap_cons, List.append_assoc] at h
      exact absurd h.symm (quotedChar_append_ne hQuote c _ _)
  | cons c s ih =>
    rw [List.flatMap_cons, List.append_assoc] at h
    cases s' with
    | nil => exact absurd h (quotedChar_append_ne hQuote c _ _)
    | cons d s' =>
      rw [List.flatMap_cons, List.append_assoc] at h
      have hRead := firstQuoted?_quotedChar hQuote c (s.flatMap (quotedChar quote) ++ quote :: t)
      rw [h, firstQuoted?_quotedChar hQuote] at hRead
      obtain ⟨hHead, hRest⟩ := Prod.mk.inj (Option.some.inj hRead)
      obtain ⟨hTail, hAfter⟩ := ih hRest.symm
      exact ⟨by rw [hHead, hTail], hAfter⟩

/-- A quoted name starts with a quote. -/
theorem quoted_eq_cons (name : String) :
    ∃ quote body, (quoted name).toList = quote :: body ∧ IsQuote quote :=
  ⟨quoteFor name.toList, _, by rw [quoted, String.toList_ofList, List.cons_append],
    isQuote_quoteFor _⟩

/-- Quoted names with anything after them are the same only if the names are, and what follows. -/
theorem quoted_append_inj {name name' : String} {t t' : List Char}
    (h : (quoted name).toList ++ t = (quoted name').toList ++ t') : name = name' ∧ t = t' := by
  simp only [quoted, String.toList_ofList, List.cons_append, List.append_assoc, List.nil_append,
    List.cons.injEq] at h
  obtain ⟨hQuote, hBody⟩ := h
  rw [hQuote] at hBody
  obtain ⟨hName, hAfter⟩ := quotedBody_append_inj (isQuote_quoteFor _) hBody
  exact ⟨String.toList_inj.mp hName, hAfter⟩

end SparqlSelect
