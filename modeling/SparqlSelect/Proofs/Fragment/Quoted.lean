import SparqlSelect.Fragment.Literals
import SparqlSelect.Proofs.Pattern.Longest

/-!
# Quoted texts

What stands between quotes ends at the first quote of its kind that no backslash stands before. So
where a quoted text ends does not depend on what follows it, and masking takes it as a whole.

* `matches_text_iff_quotes` — a quoted text is a body between two quotes of one kind.
* `text_inj`, `longest_text` — of two quoted texts none goes past the end of the other.
* `QuotedBody`, `matches_text_iff` — what may stand between double quotes, character by character.
* `maskFrom_text`, `maskFrom_append` — masking a quoted text, and a text that holds no literal.
-/

namespace SparqlSelect

open Pattern

variable {quote : Char} {s t t' u b b' rest rest' : List Char}

/-- Whether a character is a quote. -/
def isQuote (c : Char) : Bool := c == '"' || c == '\''

-- ---------------------------------------------------------------------------
-- Texts in quotes of either kind
-- ---------------------------------------------------------------------------

/-- One member of a text in quotes of one kind. -/
def partOf (quote : Char) : Pattern :=
  chars (.outside (.anyOf quote ['\\', '\n', '\r'])) ||| (char '\\' ++ chars (.outside (.one '\n')))

/-- A part of a quoted text is a plain character or an escape. -/
theorem cases_of_matches_partOf (h : Matches (partOf quote) t) :
    (∃ c, t = [c] ∧ c ≠ quote ∧ c ≠ '\\') ∨ ∃ c, t = ['\\', c] := by
  rcases matches_alt_iff.mp h with hPlain | hEscaped
  · obtain ⟨c, hc, rfl⟩ := matches_chars_iff.mp hPlain
    refine .inl ⟨c, rfl, ?_, ?_⟩
    · -- the class leaves out both the quote and the backslash
      rintro rfl
      simp [CharClass.contains] at hc
    · rintro rfl
      simp [CharClass.contains] at hc
  · obtain ⟨_, _, hSlash, hChar, rfl⟩ := matches_seq_iff.mp hEscaped
    obtain ⟨d, hd, rfl⟩ := matches_chars_iff.mp hSlash
    obtain ⟨c, -, rfl⟩ := matches_chars_iff.mp hChar
    exact .inr ⟨c, by rw [← beq_iff_eq.mp hd]; rfl⟩

/-- A body that is not empty starts with a plain character or with an escape. -/
theorem cases_of_matches_body {c : Char} (h : Matches (many (partOf quote)) (c :: b)) :
    (c ≠ quote ∧ c ≠ '\\' ∧ Matches (many (partOf quote)) b) ∨
      c = '\\' ∧ ∃ d u, b = d :: u ∧ Matches (many (partOf quote)) u := by
  obtain ⟨t, u, hPart, hRest, rfl⟩ := matches_many_cons_iff.mp h
  obtain ⟨d, hd, hOther, hPlain⟩ | ⟨d, hd⟩ := cases_of_matches_partOf hPart
  · obtain ⟨rfl, rfl⟩ := List.cons.inj hd
    exact .inl ⟨hOther, hPlain, hRest⟩
  · obtain ⟨rfl, rfl⟩ := List.cons.inj hd
    exact .inr ⟨rfl, d, u, rfl, hRest⟩

/-- No body of a quoted text goes past the quote after another. -/
theorem same_end_of_matches (hQuote : quote ≠ '\\') (h : Matches (many (partOf quote)) b)
    (h' : Matches (many (partOf quote)) b') (hSplit : b ++ quote :: rest = b' ++ quote :: rest') :
    b = b' := by
  refine matches_many_induction (P := fun b => ∀ b', Matches (many (partOf quote)) b' →
    b ++ quote :: rest = b' ++ quote :: rest' → b = b') ?_ ?_ h b' h' hSplit
  · intro b' h' hSplit
    cases b' with
    | nil => rfl
    | cons c b' =>
      obtain ⟨rfl, -⟩ := List.cons.inj hSplit
      obtain ⟨hOther, -, -⟩ | ⟨hEscape, -⟩ := cases_of_matches_body h'
      · exact absurd rfl hOther
      · exact absurd hEscape hQuote
  · intro t u hPart _ ih b' h' hSplit
    -- what the other body starts with is the same part, since its first character is the same
    obtain ⟨c, rfl, hOther, hPlain⟩ | ⟨c, rfl⟩ := cases_of_matches_partOf hPart
    · cases b' with
      | nil => exact absurd (List.cons.inj hSplit).1 hOther
      | cons d b' =>
        obtain ⟨rfl, hTail⟩ := List.cons.inj hSplit
        obtain ⟨-, -, hRest⟩ | ⟨hEscape, -⟩ := cases_of_matches_body h'
        · exact congrArg (c :: ·) (ih b' hRest hTail)
        · exact absurd hEscape hPlain
    · cases b' with
      | nil => exact absurd (List.cons.inj hSplit).1.symm hQuote
      | cons d b' =>
        obtain ⟨rfl, hTail⟩ := List.cons.inj hSplit
        obtain ⟨-, hPlain, -⟩ | ⟨-, d, u', rfl, hRest⟩ := cases_of_matches_body h'
        · exact absurd rfl hPlain
        · obtain ⟨rfl, hEnd⟩ := List.cons.inj hTail
          exact congrArg ('\\' :: c :: ·) (ih u' hRest hEnd)

/-- A quoted text is a body between two quotes of one kind. -/
theorem matches_text_iff_quotes :
    Matches Token.text t ↔
      ∃ q b, isQuote q = true ∧ Matches (many (partOf q)) b ∧ t = q :: (b ++ [q]) := by
  have hQuoted (q : Char) :
      Matches (Token.quotedBy q) t ↔ ∃ b, Matches (many (partOf q)) b ∧ t = q :: (b ++ [q]) :=
    matches_between_iff
  constructor
  · intro h
    rcases matches_alt_iff.mp h with h | h
    · obtain ⟨b, hBody, rfl⟩ := (hQuoted '"').mp h
      exact ⟨_, b, rfl, hBody, rfl⟩
    · obtain ⟨b, hBody, rfl⟩ := (hQuoted '\'').mp h
      exact ⟨_, b, rfl, hBody, rfl⟩
  · rintro ⟨q, b, hq, hBody, hText⟩
    -- an alternative for each of the two quotes
    rcases Bool.or_eq_true_iff.mp hq with hq | hq
    · exact .left ((hQuoted '"').mpr ⟨b, beq_iff_eq.mp hq ▸ hBody, beq_iff_eq.mp hq ▸ hText⟩)
    · exact .right ((hQuoted '\'').mpr ⟨b, beq_iff_eq.mp hq ▸ hBody, beq_iff_eq.mp hq ▸ hText⟩)

theorem ne_backslash_of_isQuote (h : isQuote quote = true) : quote ≠ '\\' := by
  rintro rfl
  cases h

/-- Of two quoted texts none goes past the end of the other. -/
theorem text_inj (h : Matches Token.text t) (h' : Matches Token.text t')
    (hSplit : t ++ rest = t' ++ rest') : t = t' ∧ rest = rest' := by
  obtain ⟨q, b, hQuote, hBody, rfl⟩ := matches_text_iff_quotes.mp h
  obtain ⟨q', b', -, hBody', rfl⟩ := matches_text_iff_quotes.mp h'
  obtain ⟨rfl, hTail⟩ := List.cons.inj hSplit
  have hEnds : b ++ q :: rest = b' ++ q :: rest' := by simpa using hTail
  obtain rfl := same_end_of_matches (ne_backslash_of_isQuote hQuote) hBody hBody' hEnds
  exact ⟨rfl, List.append_cancel_left hSplit⟩

/-- A quoted text ends at its closing quote, whatever follows. -/
theorem longest_text (h : Matches Token.text t) (rest : List Char) :
    Longest Token.text t rest := by
  refine ⟨h, fun u v hSplit hu => ?_⟩
  obtain ⟨rfl, -⟩ := text_inj h hu hSplit
  exact Nat.le_refl _

/-- A quoted text starts with a quote. -/
theorem following_text {c : Char} (hDouble : c ≠ '"') (hSingle : c ≠ '\'') :
    Token.text.following c = [] := by
  have hQuoted (q : Char) (hq : c ≠ q) : (Token.quotedBy q).following c = [] :=
    following_append (following_append (following_char hq) rfl) rfl
  change _ ++ _ = []
  rw [hQuoted _ hDouble, hQuoted _ hSingle]
  rfl

/-- An IRI starts with an angle. -/
theorem following_iri {c : Char} (h : c ≠ '<') : Token.iri.following c = [] :=
  following_append (following_append (following_char h) rfl) rfl

-- ---------------------------------------------------------------------------
-- Bodies between double quotes
-- ---------------------------------------------------------------------------

/-- What may stand between double quotes: characters, and pairs of a backslash and a character. -/
inductive QuotedBody : List Char → Prop
  | nil : QuotedBody []
  | plain {c b} : (c != '"' && c != '\\' && c != '\n' && c != '\r') = true → QuotedBody b →
    QuotedBody (c :: b)
  | escaped {c b} : c ≠ '\n' → QuotedBody b → QuotedBody ('\\' :: c :: b)

theorem QuotedBody.append (h : QuotedBody b) (h' : QuotedBody b') : QuotedBody (b ++ b') := by
  induction h with
  | nil => exact h'
  | plain hc _ ih => exact .plain hc ih
  | escaped hc _ ih => exact .escaped hc ih

/-- The body of a quoted text has no line feed. -/
theorem QuotedBody.newline_not_mem (h : QuotedBody b) : '\n' ∉ b := by
  induction h with
  | nil => exact List.not_mem_nil
  | plain hc _ ih =>
    rintro (_ | ⟨_, hMem⟩)
    · revert hc
      decide
    · exact ih hMem
  | escaped hc _ ih =>
    rintro (_ | ⟨_, _ | ⟨_, hMem⟩⟩)
    · -- an escaped character is never a line feed, by the constructor
      exact hc rfl
    · exact ih hMem

/-- The characters that cannot stand in a quoted text without an escape. -/
def quoteBreaks : List Char := ['"', '\\', '\n', '\r']

/-- Plain characters are the body of a quoted text. -/
theorem quotedBody_of_plain {b : List Char} (h : ∀ c ∈ b, c ∉ quoteBreaks) :
    QuotedBody b := by
  induction b with
  | nil => exact .nil
  | cons c b ih =>
    obtain ⟨hc, hb⟩ := List.forall_mem_cons.mp h
    refine .plain ?_ (ih hb)
    simpa [quoteBreaks, and_assoc] using hc

/-- One member of a quoted text. -/
def quotedPart : Pattern :=
  chars (.outside (.anyOf '"' ['\\', '\n', '\r'])) ||| (char '\\' ++ chars (.outside (.one '\n')))

theorem contains_quotedPart {c : Char} :
    (CharClass.outside (.anyOf '"' ['\\', '\n', '\r'])).contains c =
      (c != '"' && c != '\\' && c != '\n' && c != '\r') := by
  simp only [CharClass.contains, CharClass.contains_anyOf, List.contains_cons, List.contains_nil,
    Bool.or_false, bne, Bool.not_or, Bool.and_assoc]

/-- Texts of quoted parts are bodies. -/
theorem quotedBody_of_matches (h : Matches (many quotedPart) b) : QuotedBody b := by
  refine matches_many_induction .nil ?_ h
  intro t u hPart _ ih
  rcases matches_alt_iff.mp hPart with hPlain | hEscaped
  · obtain ⟨c, hc, rfl⟩ := matches_chars_iff.mp hPlain
    exact .plain (contains_quotedPart ▸ hc) ih
  · obtain ⟨_, _, hSlash, hChar, rfl⟩ := matches_seq_iff.mp hEscaped
    obtain ⟨d, hd, rfl⟩ := matches_chars_iff.mp hSlash
    obtain ⟨c, hc, rfl⟩ := matches_chars_iff.mp hChar
    obtain rfl := beq_iff_eq.mp hd
    refine .escaped ?_ ih
    -- the dot of the pattern does not take a line feed
    rintro rfl
    cases hc

/-- Bodies are texts of quoted parts. -/
theorem QuotedBody.matches_many (h : QuotedBody b) : Matches (many quotedPart) b := by
  induction h with
  | nil => exact .stop
  | @plain c b hc _ ih =>
    have hPart : Matches quotedPart [c] := .left (.chars (contains_quotedPart.trans hc))
    exact .more hPart ih
  | @escaped c b hc _ ih =>
    have hChar : (CharClass.outside (.one '\n')).contains c = true := by
      simpa [CharClass.contains] using Ne.symm hc
    have hPart : Matches quotedPart (['\\'] ++ [c]) :=
      .right (.seq (.chars (beq_self_eq_true _)) (.chars hChar))
    exact .more hPart ih

/-- A text in quotes that starts with a double quote is a body between two of them. -/
theorem matches_text_iff {s : List Char} :
    Matches Token.text ('"' :: s) ↔ ∃ b, QuotedBody b ∧ s = b ++ ['"'] := by
  rw [matches_text_iff_quotes]
  constructor
  · rintro ⟨q, b, -, hBody, hText⟩
    obtain ⟨rfl, rfl⟩ := List.cons.inj hText
    exact ⟨b, quotedBody_of_matches hBody, rfl⟩
  · rintro ⟨b, hBody, rfl⟩
    exact ⟨'"', b, rfl, hBody.matches_many, rfl⟩

-- ---------------------------------------------------------------------------
-- Masking
-- ---------------------------------------------------------------------------

theorem maskFrom_length (s rest : List Char) : maskFrom s.length (s ++ rest) = maskFrom 0 rest := by
  induction s with
  | nil => rfl
  | cons _ _ ih => exact ih

/-- A literal is masked as one character. -/
theorem maskFrom_literal {c : Char} {s rest : List Char}
    (h : Longest (Token.text ||| Token.iri) (c :: s) rest) :
    maskFrom 0 (c :: (s ++ rest)) = '_' :: maskFrom 0 rest := by
  have hLength : (Token.text ||| Token.iri).matchLength? (c :: (s ++ rest)) = some (s.length + 1) :=
    matchLength?_eq_some_iff.mpr ⟨c :: s, rest, rfl, rfl, h⟩
  rw [maskFrom, hLength]
  exact congrArg _ (maskFrom_length s rest)

/-- Masking takes a quoted text as a whole, whatever it holds. -/
theorem maskFrom_text (hQuote : isQuote quote = true) (h : Matches (many (partOf quote)) b)
    (rest : List Char) :
    maskFrom 0 (quote :: (b ++ quote :: rest)) = '_' :: maskFrom 0 rest := by
  have hAll : b ++ quote :: rest = (b ++ [quote]) ++ rest := by simp
  have hText := matches_text_iff_quotes.mpr ⟨quote, b, hQuote, h, rfl⟩
  rw [hAll]
  refine maskFrom_literal ((longest_text hText rest).left (following_iri ?_))
  rintro rfl
  cases hQuote

/-- Masking takes a text between double quotes as a whole, whatever it holds. -/
theorem maskFrom_quoted (h : QuotedBody b) (rest : List Char) :
    maskFrom 0 ('"' :: (b ++ '"' :: rest)) = '_' :: maskFrom 0 rest :=
  maskFrom_text rfl h.matches_many rest

/-- Whether a character can start a literal. -/
def startsLiteral (c : Char) : Bool := c == '"' || c == '\'' || c == '<'

theorem following_literal {c : Char} (h : startsLiteral c = false) :
    (Token.text ||| Token.iri).following c = [] := by
  simp only [startsLiteral, Bool.or_eq_false_iff, beq_eq_false_iff_ne] at h
  obtain ⟨⟨hDouble, hSingle⟩, hAngle⟩ := h
  change _ ++ _ = []
  rw [following_text hDouble hSingle, following_iri hAngle]
  rfl

/-- A character that starts no literal stays. -/
theorem maskFrom_cons {c : Char} (h : startsLiteral c = false) (s : List Char) :
    maskFrom 0 (c :: s) = c :: maskFrom 0 s := by
  rw [maskFrom, matchLength?_cons_eq_none (following_literal h) rfl]

/-- Masking leaves a text alone in which no literal starts. -/
theorem maskFrom_append {s : List Char} (h : s.any startsLiteral = false) (rest : List Char) :
    maskFrom 0 (s ++ rest) = s ++ maskFrom 0 rest := by
  induction s with
  | nil => rfl
  | cons c s ih =>
    rw [List.any_cons, Bool.or_eq_false_iff] at h
    rw [List.cons_append, maskFrom_cons h.1, ih h.2, List.cons_append]

end SparqlSelect
