import SparqlSelect.Proofs.Fragment.Quoted
import SparqlSelect.Proofs.Pattern.Scanning

/-!
# Texts that keep their braces to themselves

Masking hides the curly braces in a quoted text, as long as its reader starts at the quote that
opens the text. In a sealed text every quote opens or closes a quoted text, and braces stand inside
these only. So nothing of them is left when it is masked, and the same holds when sealed texts are
put together.

A literal ends on the line on which it starts, so the lines of a text are masked one by one.

* `Sealed` — texts in which quotes come in pairs and braces between them only.
* `Contained` — texts that are masked to one without braces, `contained_of_sealed` and
  `contained_of_braceless`.
* `maskFrom_append_of_same`, `maskFrom_line` — masking part by part, and line by line.
* `Inert`, `Braceless` — texts without quotes and braces, and texts without braces.
-/

namespace SparqlSelect

open Pattern

/-- Whether a character is a curly brace. -/
def isBrace (c : Char) : Bool := c == '\x7b' || c == '\x7d'

/-- Whether a character is neither a quote nor a curly brace. -/
def isInert (c : Char) : Bool := !isQuote c && !isBrace c

section

variable {t b : List Char}

-- ---------------------------------------------------------------------------
-- IRIs
-- ---------------------------------------------------------------------------

/-- What may stand between angle brackets. -/
def iriBody : Pattern := many (chars Token.iriPart)

theorem matches_iri_iff :
    Matches Token.iri t ↔ ∃ b, Matches iriBody b ∧ t = '<' :: (b ++ ['>']) :=
  matches_between_iff

/-- No IRI goes past the end of another. -/
theorem longest_iri (h : Matches Token.iri t) (rest : List Char) : Longest Token.iri t rest := by
  refine ⟨h, fun u v hSplit hu => ?_⟩
  obtain ⟨b, hBody, rfl⟩ := matches_iri_iff.mp h
  obtain ⟨b', hBody', rfl⟩ := matches_iri_iff.mp hu
  have hEnds : b ++ '>' :: rest = b' ++ '>' :: v := by simpa using hSplit
  obtain ⟨rfl, -⟩ := append_cons_inj (not_mem_of_excludes hBody (by decide))
    (not_mem_of_excludes hBody' (by decide)) hEnds
  exact Nat.le_refl _

/-- Masking takes an IRI as a whole. -/
theorem maskFrom_iri (h : Matches iriBody b) (rest : List Char) :
    maskFrom 0 ('<' :: (b ++ '>' :: rest)) = '_' :: maskFrom 0 rest := by
  have hAll : b ++ '>' :: rest = (b ++ ['>']) ++ rest := by simp
  rw [hAll]
  have hIri := longest_iri (matches_iri_iff.mpr ⟨b, h, rfl⟩) rest
  exact maskFrom_literal (hIri.right (following_text (by decide) (by decide)))

end

-- ---------------------------------------------------------------------------
-- Sealed texts
-- ---------------------------------------------------------------------------

/-- Texts in which quotes open and close quoted texts or stand in IRIs, and curly braces stand in
quoted texts only. An IRI may hold single quotes, so a text in single quotes comes after a space: no
IRI goes past that. -/
inductive Sealed : List Char → Prop
  | nil : Sealed []
  | inert {c s} : isInert c = true → Sealed s → Sealed (c :: s)
  | double {b s} : Matches (many (partOf '"')) b → Sealed s → Sealed ('"' :: (b ++ '"' :: s))
  | single {b s} : Matches (many (partOf '\'')) b → Sealed s →
    Sealed (' ' :: '\'' :: (b ++ '\'' :: s))
  | iri {b s} : Matches iriBody b → Sealed s → Sealed ('<' :: (b ++ '>' :: s))

section

variable {s t u : List Char} {c : Char} {p : Pattern}

theorem Sealed.append (hs : Sealed s) (ht : Sealed t) : Sealed (s ++ t) := by
  induction hs with
  | nil => exact ht
  | inert hc _ ih => exact .inert hc ih
  | @double b s hBody _ ih =>
    -- what is appended goes behind the closing quote, where the invariant goes on
    have hAll : '"' :: (b ++ '"' :: s) ++ t = '"' :: (b ++ '"' :: (s ++ t)) := by simp
    exact hAll ▸ .double hBody ih
  | @single b s hBody _ ih =>
    have hAll : ' ' :: '\'' :: (b ++ '\'' :: s) ++ t = ' ' :: '\'' :: (b ++ '\'' :: (s ++ t)) := by
      simp
    exact hAll ▸ .single hBody ih
  | @iri b s hBody _ ih =>
    have hAll : '<' :: (b ++ '>' :: s) ++ t = '<' :: (b ++ '>' :: (s ++ t)) := by simp
    exact hAll ▸ .iri hBody ih

/-- A text without quotes and braces is sealed. -/
theorem sealed_of_inert (h : s.all isInert = true) : Sealed s := by
  induction s with
  | nil => exact .nil
  | cons c s ih =>
    obtain ⟨hc, hs⟩ := Bool.and_eq_true_iff.mp h
    exact .inert hc (ih hs)

/-- An IRI is sealed. -/
theorem sealed_of_iri (h : Matches Token.iri s) : Sealed s := by
  obtain ⟨b, hBody, rfl⟩ := matches_iri_iff.mp h
  exact .iri hBody .nil

/-- A quoted text is sealed after a space. -/
theorem sealed_of_text (h : Matches Token.text t) : Sealed (' ' :: t) := by
  obtain ⟨q, b, hq, hBody, rfl⟩ := matches_text_iff_quotes.mp h
  rcases Bool.or_eq_true_iff.mp hq with hq | hq
  · obtain rfl := beq_iff_eq.mp hq
    exact .inert rfl (.double hBody .nil)
  · obtain rfl := beq_iff_eq.mp hq
    exact .single hBody .nil

/-- Whether the texts of a pattern hold quotes in IRIs only and no curly braces. -/
def Pattern.seals : Pattern → Bool
  | nothing => true
  | chars k => !k.contains '"' && !k.contains '\'' && !k.contains '\x7b' && !k.contains '\x7d'
  | seq p q => seq p q == Token.iri || p.seals && q.seals
  | alt p q => p.seals && q.seals
  | many p => p.seals

/-- A pattern that seals by its shape accepts sealed texts only. -/
theorem sealed_of_matches (hText : Matches p s) (h : p.seals = true) : Sealed s := by
  -- induction on the pattern: an IRI is sealed as a whole, everything else part by part
  induction p generalizing s with
  | nothing =>
    rw [matches_nothing_iff.mp hText]
    exact .nil
  | chars k =>
    obtain ⟨c, hc, rfl⟩ := matches_chars_iff.mp hText
    simp only [Pattern.seals, Bool.and_eq_true, Bool.not_eq_true'] at h
    obtain ⟨⟨⟨hDouble, hSingle⟩, hOpen⟩, hClose⟩ := h
    have hNot {d : Char} (hd : k.contains d = false) : c ≠ d := by
      rintro rfl
      rw [hc] at hd
      cases hd
    refine .inert ?_ .nil
    simp [isInert, isQuote, isBrace, hNot hDouble, hNot hSingle, hNot hOpen, hNot hClose]
  | seq p q ihp ihq =>
    rcases Bool.or_eq_true_iff.mp h with hIri | hBoth
    · rw [beq_iff_eq.mp hIri] at hText
      exact sealed_of_iri hText
    · obtain ⟨hp, hq⟩ := Bool.and_eq_true_iff.mp hBoth
      obtain ⟨t, u, ht, hu, rfl⟩ := matches_seq_iff.mp hText
      exact (ihp ht hp).append (ihq hu hq)
  | alt p q ihp ihq =>
    obtain ⟨hp, hq⟩ := Bool.and_eq_true_iff.mp h
    exact (matches_alt_iff.mp hText).elim (ihp · hp) (ihq · hq)
  | many p ih =>
    exact matches_many_induction (P := Sealed) .nil
      (fun t u ht _ hu => (ih ht h).append hu) hText

-- ---------------------------------------------------------------------------
-- Masking
-- ---------------------------------------------------------------------------

/-- Texts that are masked to one without curly braces. -/
def Contained (s : List Char) : Prop := ∀ c ∈ maskFrom 0 s, isBrace c = false

theorem Contained.cons {rest : List Char} (hMask : maskFrom 0 s = c :: maskFrom 0 rest)
    (hc : isBrace c = false) (h : Contained rest) : Contained s := by
  rw [Contained, hMask]
  exact List.forall_mem_cons.mpr ⟨hc, h⟩

/-- What an angle bracket among inert characters opens ends before the next literal. -/
theorem Sealed.after (h : Sealed (u ++ s)) (hSpace : ' ' ∉ u) (hQuote : '"' ∉ u) (hOpen : '<' ∉ u) :
    Sealed s := by
  induction u with
  | nil => exact h
  | cons c u ih =>
    rw [List.mem_cons, not_or] at hSpace hQuote hOpen
    refine ih ?_ hSpace.2 hQuote.2 hOpen.2
    generalize hRest : u ++ s = rest
    rw [List.cons_append, hRest] at h
    cases h with
    -- every other rule begins with a character that `u` does not hold
    | inert _ h => exact h
    | double _ _ => exact absurd rfl hQuote.1
    | single _ _ => exact absurd rfl hSpace.1
    | iri _ _ => exact absurd rfl hOpen.1

/-- A literal or an IRI that starts with an inert character is an IRI, since a text starts with a
quote, and what follows it is sealed. -/
theorem Sealed.after_literal {rest after : List Char} (hc : isInert c = true) (hRest : Sealed rest)
    (hText : Matches (Token.text ||| Token.iri) t) (hSplit : c :: rest = t ++ after) :
    Sealed after ∧ maskFrom 0 (c :: rest) = '_' :: maskFrom 0 after ∧
      after.length < (c :: rest).length := by
  rcases matches_alt_iff.mp hText with hText | hIri
  · obtain ⟨q, b, hq, -, rfl⟩ := matches_text_iff_quotes.mp hText
    -- a literal would begin with a quote, and the character before the rest is inert
    rw [isInert, (List.cons.inj hSplit).1, hq] at hc
    cases hc
  · obtain ⟨b, hBody, rfl⟩ := matches_iri_iff.mp hIri
    obtain ⟨rfl, rfl⟩ := List.cons.inj hSplit
    have hNot {d : Char} (hd : iriBody.excludes d = true) (hEnd : d ≠ '>') : d ∉ b ++ ['>'] := by
      simp [not_mem_of_excludes hBody hd, hEnd]
    -- nothing that opens a literal or an address stands within an address
    refine ⟨Sealed.after hRest (hNot (by decide) (by decide)) (hNot (by decide) (by decide))
      (hNot (by decide) (by decide)), by simpa using maskFrom_iri hBody after, ?_⟩
    change after.length < ('<' :: (b ++ ['>'] ++ after)).length
    simp only [List.length_cons, List.length_append]
    omega

/-- Nothing is left of the braces in a sealed text. -/
theorem contained_of_sealed (h : Sealed s) : Contained s := by
  -- a literal is taken as a whole, so the induction is on the length of what is left
  induction hLength : s.length using Nat.strongRecOn generalizing s with
  | ind n ih =>
    subst hLength
    have hIh {rest : List Char} (hLess : rest.length < s.length) (hRest : Sealed rest) :
        Contained rest := ih rest.length hLess hRest rfl
    cases h with
    | nil =>
      intro c hc
      cases hc
    | @inert c rest hc hRest =>
      have hBrace : isBrace c = false := by simpa using (Bool.and_eq_true_iff.mp hc).2
      cases hMatch : (Token.text ||| Token.iri).matchLength? (c :: rest) with
      | none => exact (hIh (by simp) hRest).cons (by rw [maskFrom, hMatch]) hBrace
      | some k =>
        cases k with
        | zero => exact (hIh (by simp) hRest).cons (by rw [maskFrom, hMatch]) hBrace
        | succ k =>
          obtain ⟨t, after, hSplit, -, hText, -⟩ := matchLength?_eq_some_iff.mp hMatch
          obtain ⟨hAfter, hMask, hLess⟩ := Sealed.after_literal hc hRest hText hSplit
          exact (hIh hLess hAfter).cons hMask rfl
    | @double b rest hBody hRest =>
      refine (hIh ?_ hRest).cons (maskFrom_text rfl hBody rest) rfl
      simp only [List.length_cons, List.length_append]
      omega
    | @single b rest hBody hRest =>
      refine Contained.cons (maskFrom_cons rfl _) rfl ?_
      refine (hIh ?_ hRest).cons (maskFrom_text rfl hBody rest) rfl
      simp only [List.length_cons, List.length_append]
      omega
    | @iri b rest hBody hRest =>
      refine (hIh ?_ hRest).cons (maskFrom_iri hBody rest) rfl
      simp only [List.length_cons, List.length_append]
      omega

/-- The mask is a scan for literals. -/
theorem maskFrom_eq_scanFrom (n : Nat) (s : List Char) :
    maskFrom n s = scanFrom (Token.text ||| Token.iri) (fun _ => ['_']) (fun c => [c]) n s := by
  induction s generalizing n with
  | nil => cases n <;> rfl
  | cons c s ih =>
    cases n with
    | succ n => exact ih n
    | zero =>
      -- the mask writes one character for a literal where the scan writes its value
      rw [maskFrom, scanFrom]
      rcases (Token.text ||| Token.iri).matchLength? (c :: s) with _ | _ | k
      · exact congrArg (c :: ·) (ih 0)
      · exact congrArg (c :: ·) (ih 0)
      · exact congrArg ('_' :: ·) (ih k)

/-- A masked text holds underscores and what was there before. -/
theorem mem_of_mem_maskFrom {n : Nat} (h : c ∈ maskFrom n s) : c = '_' ∨ c ∈ s := by
  rw [maskFrom_eq_scanFrom] at h
  rcases exists_of_mem_scanFrom h with ⟨t, -, hFound⟩ | ⟨d, hd, hPassed⟩
  · exact .inl (List.mem_singleton.mp hFound)
  · exact .inr (List.mem_singleton.mp hPassed ▸ hd)

/-- A text without a brace is contained, whatever literals it has. -/
theorem contained_of_braceless (h : ∀ c ∈ s, isBrace c = false) : Contained s := by
  intro c hc
  rcases mem_of_mem_maskFrom hc with rfl | hc
  · rfl
  · exact h c hc

/-- A text is masked apart from what follows it if this does not make a difference to where its
literals end. -/
theorem maskFrom_append_of_same {rest : List Char}
    (h : ∀ c t, (Token.text ||| Token.iri).matchLength? (c :: t ++ rest) =
      (Token.text ||| Token.iri).matchLength? (c :: t)) (s : List Char) :
    maskFrom 0 (s ++ rest) = maskFrom 0 s ++ maskFrom 0 rest := by
  simp only [maskFrom_eq_scanFrom]
  exact scanFrom_append h s

/-- No literal goes past the end of its line. -/
theorem maskFrom_line (s rest : List Char) :
    maskFrom 0 (s ++ '\n' :: rest) = maskFrom 0 s ++ '\n' :: maskFrom 0 rest := by
  rw [maskFrom_append_of_same fun c t => matchLength?_append_cons (by decide) (c :: t) rest,
    maskFrom_cons rfl]

end

-- ---------------------------------------------------------------------------
-- Names
-- ---------------------------------------------------------------------------

/-- A text without quotes and curly braces. -/
def Inert (s : String) : Prop := ∀ c ∈ s.toList, isInert c = true

/-- A text without curly braces. -/
def Braceless (s : String) : Prop := ∀ c ∈ s.toList, isBrace c = false

instance (s : String) : Decidable (Inert s) :=
  decidable_of_iff (s.toList.all isInert = true) List.all_eq_true

instance (s : String) : Decidable (Braceless s) :=
  decidable_of_iff (s.toList.all (!isBrace ·) = true) (by simp [Braceless])

section

variable {s t : String}

theorem Inert.sealed (h : Inert s) : Sealed s.toList := sealed_of_inert (List.all_eq_true.mpr h)

theorem Inert.braceless (h : Inert s) : Braceless s := fun c hc => by
  simpa using (Bool.and_eq_true_iff.mp (h c hc)).2

theorem Inert.append (hs : Inert s) (ht : Inert t) : Inert (s ++ t) := by
  rw [Inert, String.toList_append, List.forall_mem_append]
  exact ⟨hs, ht⟩

theorem Braceless.contained (h : Braceless s) : Contained s.toList := contained_of_braceless h

theorem Braceless.append (hs : Braceless s) (ht : Braceless t) : Braceless (s ++ t) := by
  rw [Braceless, String.toList_append, List.forall_mem_append]
  exact ⟨hs, ht⟩

theorem braceless_iff : Braceless s ↔ '\x7b' ∉ s.toList ∧ '\x7d' ∉ s.toList := by
  constructor
  · exact fun h => ⟨fun hc => absurd (h _ hc) (by decide), fun hc => absurd (h _ hc) (by decide)⟩
  · rintro ⟨hOpen, hClose⟩ c hc
    refine Bool.or_eq_false_iff.mpr ⟨beq_eq_false_iff_ne.mpr ?_, beq_eq_false_iff_ne.mpr ?_⟩
    · exact fun h => hOpen (h ▸ hc)
    · exact fun h => hClose (h ▸ hc)

/-- What matches a pattern that excludes both braces holds neither. -/
theorem braceless_of_matches {p : Pattern} (hText : Matches p s.toList)
    (h : (p.excludes '\x7b' && p.excludes '\x7d') = true) : Braceless s := by
  obtain ⟨hOpen, hClose⟩ := Bool.and_eq_true_iff.mp h
  exact braceless_iff.mpr ⟨not_mem_of_excludes hText hOpen, not_mem_of_excludes hText hClose⟩

/-- What passes from two texts to both of them joined holds of a joined list of texts. -/
theorem intercalate_induction {P : String → Prop} {separator : String} {texts : List String}
    (hEmpty : P "") (hAppend : ∀ s t, P s → P t → P (s ++ t)) (hSeparator : P separator)
    (h : ∀ s ∈ texts, P s) : P (separator.intercalate texts) := by
  induction texts with
  | nil => rwa [String.intercalate_nil]
  | cons first rest ih =>
    obtain ⟨hFirst, hRest⟩ := List.forall_mem_cons.mp h
    cases rest with
    | nil => rwa [String.intercalate_singleton]
    | cons second rest =>
      rw [String.intercalate_cons_of_ne_nil (by simp)]
      exact hAppend _ _ (hAppend _ _ hFirst hSeparator) (ih hRest)

/-- Texts without a brace, joined by one without, have none. -/
theorem braceless_intercalate {separator : String} {texts : List String}
    (hSeparator : Braceless separator) (h : ∀ s ∈ texts, Braceless s) :
    Braceless (separator.intercalate texts) :=
  intercalate_induction (by decide) (fun _ _ => Braceless.append) hSeparator h

end

end SparqlSelect
