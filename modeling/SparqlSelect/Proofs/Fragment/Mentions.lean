import SparqlSelect.Proofs.Fragment.Alias
import SparqlSelect.Proofs.Fragment.Sealed
import SparqlSelect.Proofs.Fragment.Shapes
import SparqlSelect.Proofs.Pattern.Scanning

/-!
# Variables that terms mention

The variables of a term are looked for in its text, whatever kind of term it is. A variable is found
in itself. In all other terms a mark with a name behind it can only stand in a quoted text or
between angle brackets, where it is no variable: in a literal, in the query of an IRI, in the unit
of a circle. The `?` that may end a step of a path has no name behind it.

* `variablesFrom_append` — a scan does not go past a character that is not part of names.
* `EnclosedIn` — a variable that is read in a quoted text or between angle brackets.
* `Conceals` — patterns whose texts mention no other variables, with a rule for each way to put
  patterns together.
* `mem_variablesIn_iff` — the variables that a term mentions.
-/

namespace SparqlSelect

open Pattern

section

variable {p q : Pattern} {c : Char} {s t x rest : List Char}

-- ---------------------------------------------------------------------------
-- Scanning for variables
-- ---------------------------------------------------------------------------

/-- What stands behind the mark of a variable. -/
def namePattern : Pattern := chars (Token.nameStart .letter) ++ many (chars .word)

/-- A variable is a mark and a name. -/
theorem matches_var_iff :
    Matches Token.var x ↔ ∃ m n, x = m :: n ∧ isMark m = true ∧ Matches namePattern n := by
  rw [Token.var, matches_varOf_iff]
  constructor
  · rintro ⟨m, n, rest, rfl, hm, hn, hRest⟩
    exact ⟨m, _, rfl, hm, .seq (s := [n]) (.chars hn) hRest⟩
  · rintro ⟨m, _, rfl, hm, hName⟩
    obtain ⟨_, rest, hStart, hRest, rfl⟩ := matches_seq_iff.mp hName
    obtain ⟨n, hn, rfl⟩ := matches_chars_iff.mp hStart
    exact ⟨m, n, rest, rfl, hm, hn, hRest⟩

/-- A variable is found only where a mark stands. -/
theorem following_var (h : isMark c = false) : Token.var.following c = [] := by
  refine following_append (following_append ?_ rfl) rfl
  simp only [isMark, Bool.or_eq_false_iff, beq_eq_false_iff_ne] at h
  simp [following, h.1, h.2]

/-- The search for variables is a scan for the pattern of a variable. -/
theorem variablesFrom_eq_scanFrom (n : Nat) (s : List Char) :
    variablesFrom n s = scanFrom Token.var (fun t => [t]) (fun _ => []) n s := by
  induction s generalizing n with
  | nil => cases n <;> rfl
  | cons c s ih =>
    cases n with
    | succ n => exact ih n
    | zero =>
      rw [variablesFrom, scanFrom]
      -- no match, an empty match and a match of some length, as the two scans tell them apart
      rcases Token.var.matchLength? (c :: s) with _ | _ | k
      · exact ih 0
      · exact ih 0
      · exact congrArg (_ :: ·) (ih k)

/-- Where what follows does not start with a part of a name, it is scanned on its own. -/
theorem variablesFrom_append (h : ∀ d ∈ rest.head?, namePattern.excludes d = true)
    (s : List Char) : variablesFrom 0 (s ++ rest) = variablesFrom 0 s ++ variablesFrom 0 rest := by
  simp only [variablesFrom_eq_scanFrom]
  refine scanFrom_append (fun c t => matchLength?_append fun u v hSplit hu => ?_) s
  obtain ⟨m, n, rfl, -, hName⟩ := matches_var_iff.mp hu
  obtain ⟨rfl, hTail⟩ := List.cons.inj hSplit
  cases rest with
  | nil => exact ⟨v, by simpa using hSplit⟩
  | cons d rest =>
    have hNone : d ∉ n := not_mem_of_excludes hName (h d rfl)
    obtain ⟨w, rfl, -⟩ := behind_of_not_mem hNone hTail.symm
    exact ⟨w, rfl⟩

theorem variablesFrom_cons (h : isMark c = false) (s : List Char) :
    variablesFrom 0 (c :: s) = variablesFrom 0 s := by
  simp only [variablesFrom_eq_scanFrom]
  exact scanFrom_passed (matchLength?_cons_eq_none (following_var h) rfl s)

/-- A text without marks mentions nothing, whatever comes after it. -/
theorem variablesFrom_markless (h : ∀ c ∈ s, isMark c = false) (rest : List Char) :
    variablesFrom 0 (s ++ rest) = variablesFrom 0 rest := by
  induction s with
  | nil => rfl
  | cons c s ih =>
    obtain ⟨hc, hs⟩ := List.forall_mem_cons.mp h
    rw [List.cons_append, variablesFrom_cons hc, ih hs]

/-- A mark alone is no variable. -/
theorem variablesFrom_singleton (c : Char) : variablesFrom 0 [c] = [] := by
  have hNone : Token.var.matchLength? [c] = none := by
    refine matchLength?_eq_none_iff.mpr fun u v hSplit hu => ?_
    obtain ⟨m, n, rest, rfl, -⟩ := matches_varOf_iff.mp hu
    have := congrArg List.length hSplit
    simp at this
  rw [variablesFrom_eq_scanFrom, scanFrom_passed hNone]
  rfl

/-- A variable mentions itself and nothing else. -/
theorem variablesFrom_var (h : Matches Token.var s) : variablesFrom 0 s = [s] := by
  obtain ⟨m, n, rfl, -, -⟩ := matches_var_iff.mp h
  have hLength : Token.var.matchLength? (m :: n) = some (n.length + 1) :=
    matchLength?_eq_some_iff.mpr ⟨m :: n, [], by simp, rfl, h, fun u v hSplit _ => by
      rw [List.append_nil] at hSplit
      simp [hSplit]⟩
  rw [variablesFrom_eq_scanFrom, scanFrom_taken hLength, scanFrom_eq_drop, List.drop_length,
    List.take_succ_cons, List.take_length]
  rfl

/-- What is found is a variable. -/
theorem matches_of_mem_variablesFrom {n : Nat} (h : x ∈ variablesFrom n s) :
    Matches Token.var x := by
  rw [variablesFrom_eq_scanFrom] at h
  rcases exists_of_mem_scanFrom h with ⟨t, ht, hFound⟩ | ⟨c, -, hPassed⟩
  · rwa [List.mem_singleton.mp hFound]
  · cases hPassed

-- ---------------------------------------------------------------------------
-- Enclosed variables
-- ---------------------------------------------------------------------------

/-- Angle brackets with no white space between them. -/
def angled : Pattern :=
  char '<' ++ many (chars (.outside (CharClass.blank.plus ['>']))) ++ char '>'

/-- A quoted text, or what stands between angle brackets. -/
def enclosed : Pattern := Token.text ||| angled

/-- A variable is read in a quoted text, or between angle brackets, somewhere in a text. -/
def EnclosedIn (x s : List Char) : Prop :=
  ∃ a w b, s = a ++ (w ++ b) ∧ Matches enclosed w ∧ x ∈ variablesFrom 0 w

/-- Text in front leaves what is enclosed enclosed. -/
theorem EnclosedIn.append_left (t : List Char) (h : EnclosedIn x s) : EnclosedIn x (t ++ s) := by
  obtain ⟨a, w, b, rfl, hw, hx⟩ := h
  exact ⟨t ++ a, w, b, by simp, hw, hx⟩

/-- Text behind leaves what is enclosed enclosed. -/
theorem EnclosedIn.append_right (t : List Char) (h : EnclosedIn x s) : EnclosedIn x (s ++ t) := by
  obtain ⟨a, w, b, rfl, hw, hx⟩ := h
  exact ⟨a, w, b ++ t, by simp, hw, hx⟩

/-- The marks around what is enclosed are not part of names. -/
theorem exists_of_enclosed (h : Matches enclosed s) :
    ∃ c u d, s = c :: (u ++ [d]) ∧ namePattern.excludes c = true ∧
      namePattern.excludes d = true := by
  rcases matches_alt_iff.mp h with hText | hAngled
  · -- literals end in quotes, addresses in angles; neither can stand in a name
    obtain ⟨q, b, hQuote, -, rfl⟩ := matches_text_iff_quotes.mp hText
    have hName : namePattern.excludes q = true := by
      rcases Bool.or_eq_true_iff.mp hQuote with hq | hq
      · rw [beq_iff_eq.mp hq]
        decide
      · rw [beq_iff_eq.mp hq]
        decide
    exact ⟨q, b, q, rfl, hName, hName⟩
  · obtain ⟨_, _, hToClose, hClose, rfl⟩ := matches_seq_iff.mp hAngled
    obtain ⟨_, u, hOpen, -, rfl⟩ := matches_seq_iff.mp hToClose
    obtain rfl := eq_of_matches_word (w := ['<']) hOpen
    obtain rfl := eq_of_matches_word (w := ['>']) hClose
    exact ⟨'<', u, '>', rfl, by decide, by decide⟩

/-- What is enclosed in a text is found in the text, whatever stands around it. -/
theorem mem_of_enclosedIn (h : EnclosedIn x s) : x ∈ variablesFrom 0 s := by
  obtain ⟨a, w, b, rfl, hw, hx⟩ := h
  obtain ⟨c, u, d, rfl, hc, hd⟩ := exists_of_enclosed hw
  have hHead {e : Char} {r : List Char} (he : namePattern.excludes e = true) :
      ∀ f ∈ (e :: r).head?, namePattern.excludes f = true := by
    rintro f ⟨⟩
    exact he
  rw [← List.cons_append, variablesFrom_append (hHead hd), variablesFrom_singleton,
    List.append_nil] at hx
  -- the delimiters cut the scan in three, and the variable is found in the middle part
  have hParts : a ++ (c :: (u ++ [d]) ++ b) = a ++ c :: (u ++ d :: b) := by simp
  rw [hParts, variablesFrom_append (hHead hc), ← List.cons_append, variablesFrom_append (hHead hd)]
  exact List.mem_append_right _ (List.mem_append_left _ hx)

-- ---------------------------------------------------------------------------
-- Patterns that conceal their variables
-- ---------------------------------------------------------------------------

/-- Variables are mentioned by the texts of a pattern only where they are enclosed. -/
def Conceals (p : Pattern) : Prop :=
  ∀ s, Matches p s → ∀ x ∈ variablesFrom 0 s, EnclosedIn x s

/-- Whether no text of a pattern holds a mark. -/
def Pattern.isMarkless (p : Pattern) : Bool := p.excludes '?' && p.excludes '$'

/-- Whether no character of a class is part of a name, as far as its shape tells. -/
def CharClass.avoidsNames : CharClass → Bool
  | one c => namePattern.excludes c
  | blank => true
  | either a b => a.avoidsNames && b.avoidsNames
  | between _ _ | word | decimal | outside _ => false

/-- Whether no text of a pattern starts with a part of a name. -/
def Pattern.startsOutside : Pattern → Bool
  | nothing => true
  | chars k => k.avoidsNames
  | seq p q => p.startsOutside && (!p.acceptsEmpty || q.startsOutside)
  | alt p q => p.startsOutside && q.startsOutside
  | many p => p.startsOutside

theorem excludes_of_isBlank (h : isBlank c = true) : namePattern.excludes c = true := by
  have hNot {k : CharClass} (hk : k.avoidsBlank = true) : k.contains c = false := by
    rw [Bool.eq_false_iff]
    intro hc
    rw [CharClass.isBlank_of_avoidsBlank hk hc] at h
    cases h
  have hStart := hNot (k := Token.nameStart .letter) (by decide)
  have hWord := hNot (k := .word) (by decide)
  change (!(Token.nameStart .letter).contains c && !CharClass.word.contains c) = true
  rw [hStart, hWord]
  rfl

theorem CharClass.excludes_of_avoidsNames {k : CharClass} (h : k.avoidsNames = true)
    (hc : k.contains c = true) : namePattern.excludes c = true := by
  induction k with
  | one d => rwa [← beq_iff_eq.mp hc]
  | blank => exact excludes_of_isBlank hc
  | either a b iha ihb =>
    obtain ⟨ha, hb⟩ := Bool.and_eq_true_iff.mp h
    exact (Bool.or_eq_true_iff.mp hc).elim (iha ha) (ihb hb)
  | between | word | decimal | outside => cases h

/-- A pattern that starts outside names accepts no text that could continue one. -/
theorem head_of_startsOutside (hText : Matches p s) (h : p.startsOutside = true) :
    ∀ d ∈ s.head?, namePattern.excludes d = true := by
  -- induction on the match: what may be empty passes the question on to what follows it
  induction hText with
  | nothing => simp
  | chars hc =>
    rintro d ⟨⟩
    exact CharClass.excludes_of_avoidsNames h hc
  | @seq p q s t hp _ ihp ihq =>
    obtain ⟨hStart, hRest⟩ := Bool.and_eq_true_iff.mp h
    cases s with
    | nil =>
      rw [acceptsEmpty_iff.mpr hp] at hRest
      exact ihq hRest
    | cons d s => exact ihp hStart
  | left _ ih => exact ih (Bool.and_eq_true_iff.mp h).1
  | right _ ih => exact ih (Bool.and_eq_true_iff.mp h).2
  | stop => simp
  | @more p s t _ _ ihp ihm =>
    cases s with
    | nil => exact ihm h
    | cons d s => exact ihp h

/-- A pattern without a mark accepts texts without one. -/
theorem isMark_of_isMarkless (hText : Matches p s) (h : p.isMarkless = true) :
    ∀ c ∈ s, isMark c = false := by
  obtain ⟨hQuestion, hDollar⟩ := Bool.and_eq_true_iff.mp h
  intro c hc
  rw [Bool.eq_false_iff]
  exact fun hMark => forall_isMark (P := fun c => c ∉ s) (not_mem_of_excludes hText hQuestion)
    (not_mem_of_excludes hText hDollar) c hMark hc

/-- A pattern without a mark has no variable to conceal. -/
theorem conceals_markless (h : p.isMarkless = true) : Conceals p := by
  intro s hText x hx
  have hNone := variablesFrom_markless (isMark_of_isMarkless hText h) []
  rw [List.append_nil] at hNone
  rw [hNone] at hx
  cases hx

theorem conceals_chars (k : CharClass) : Conceals (chars k) := by
  intro s hText x hx
  obtain ⟨c, -, rfl⟩ := matches_chars_iff.mp hText
  rw [variablesFrom_singleton] at hx
  cases hx

theorem conceals_nothing : Conceals nothing := by
  intro s hText x hx
  rw [matches_nothing_iff.mp hText] at hx
  cases hx

/-- A pattern of literals conceals: all its variables are enclosed. -/
theorem conceals_enclosed (h : ∀ s, Matches p s → Matches enclosed s) : Conceals p := by
  intro s hText x hx
  exact ⟨[], s, [], by simp, h s hText, hx⟩

theorem Conceals.alt (hp : Conceals p) (hq : Conceals q) : Conceals (p ||| q) := by
  intro s h
  exact (matches_alt_iff.mp h).elim (hp s) (hq s)

theorem Conceals.optional (hp : Conceals p) : Conceals (optional p) := hp.alt conceals_nothing

/-- What starts with no part of a name can stand behind any text. -/
theorem Conceals.seq (hp : Conceals p) (hq : Conceals q) (hStart : q.startsOutside = true) :
    Conceals (p ++ q) := by
  intro s h x hx
  obtain ⟨t, u, ht, hu, rfl⟩ := matches_seq_iff.mp h
  rw [variablesFrom_append (head_of_startsOutside hu hStart)] at hx
  rcases List.mem_append.mp hx with hx | hx
  · exact (hp t ht x hx).append_right u
  · exact (hq u hu x hx).append_left t

/-- Anything can stand behind a text without marks. -/
theorem Conceals.behind (hp : p.isMarkless = true) (hq : Conceals q) : Conceals (p ++ q) := by
  intro s h x hx
  obtain ⟨t, u, ht, hu, rfl⟩ := matches_seq_iff.mp h
  rw [variablesFrom_markless (isMark_of_isMarkless ht hp)] at hx
  exact (hq u hu x hx).append_left t

/-- Repetition conceals when no piece can continue a name that the piece before it ends in. -/
theorem Conceals.many (hp : Conceals p) (hStart : p.startsOutside = true) : Conceals (many p) := by
  intro s h
  have hAll : ∀ u, Matches (Pattern.many p) u → ∀ d ∈ u.head?, namePattern.excludes d = true :=
    fun u hu => head_of_startsOutside hu hStart
  refine matches_many_induction (P := fun s => ∀ x ∈ variablesFrom 0 s, EnclosedIn x s) ?_ ?_ h
  · intro x hx
    cases hx
  · intro t u ht hu ih x hx
    -- a further round begins with a character that ends a name, so the scan can be cut before it
    rw [variablesFrom_append (hAll u hu)] at hx
    rcases List.mem_append.mp hx with hx | hx
    · exact (hp t ht x hx).append_right u
    · exact (ih x hx).append_left t

-- ---------------------------------------------------------------------------
-- Terms
-- ---------------------------------------------------------------------------

/-- What is between the angle brackets of an IRI holds no white space. -/
theorem matches_angled_of_iri (h : Matches Token.iri s) : Matches angled s := by
  obtain ⟨b, hBody, rfl⟩ := matches_iri_iff.mp h
  have hInner : Matches (many (chars (.outside (CharClass.blank.plus ['>'])))) b := by
    refine matches_many_chars fun c hc => ?_
    have hClose : c ≠ '>' := by
      rintro rfl
      exact not_mem_of_excludes hBody (by decide) hc
    simp [CharClass.contains, isBlank_of_matches hBody (by decide) c hc, hClose]
  exact matches_between_iff.mpr ⟨b, hInner, rfl⟩

theorem conceals_iri : Conceals Token.iri :=
  conceals_enclosed fun _ h => .right (matches_angled_of_iri h)

/-- The mark at the end of a step has no name behind it. -/
theorem conceals_path : Conceals Token.path := by
  have hName : Conceals (Token.iri ||| Token.prefixedName ||| char 'a') :=
    (conceals_iri.alt (conceals_markless (by decide))).alt (conceals_markless (by decide))
  have hStep : Conceals Token.pathStep :=
    (((Conceals.behind (by decide) hName).seq (conceals_markless (by decide)) (by decide)).seq
      (conceals_markless (by decide)) (by decide)).seq (conceals_chars _).optional (by decide)
  exact hStep.seq (Conceals.many (.behind (by decide) hStep) (by decide)) (by decide)

theorem conceals_native : Conceals Token.native := by
  have hDatatype : Conceals (word ['^', '^'] ++
      (Token.iri ||| Token.prefixedNameOf Token.anyCaseLetter)) :=
    .behind (by decide) (conceals_iri.alt (conceals_markless (by decide)))
  have hText : Conceals Token.text := conceals_enclosed fun _ h => .left h
  have hTail := (Conceals.alt (p := Token.languageOf Token.anyCaseLetter)
    (conceals_markless (by decide)) hDatatype).optional
  exact (((conceals_markless (by decide)).alt (conceals_markless (by decide))).alt
    (conceals_markless (by decide))).alt (hText.seq hTail (by decide))

/-- What a circle conceals is in its unit. -/
theorem conceals_circle : Conceals Token.circle := by
  -- in front of the unit there is no mark of a variable, behind it neither
  have hParts : Conceals (circleFront ++ (angled ++ (blanks ++ char ')'))) :=
    .behind (by decide) ((conceals_enclosed fun _ h => .right h).seq
      (conceals_markless (by decide)) (by decide))
  intro s h
  obtain ⟨front, unit, gap, hFront, hUnit, hGap, rfl⟩ := exists_of_matches_circle h
  have hOpen : Matches (char '<') ['<'] := .chars rfl
  have hGreater : Matches (char '>') ['>'] := .chars rfl
  have hClose : Matches (char ')') [')'] := .chars rfl
  have hAngled : Matches angled (['<'] ++ unit ++ ['>']) := by
    obtain ⟨c, u, hc, hu, rfl⟩ := matches_seq_iff.mp hUnit
    exact .seq (.seq hOpen (.more hc hu)) hGreater
  have hAll := hParts _ (.seq hFront (.seq hAngled (.seq hGap hClose)))
  simpa using hAll

end

section

variable {v x : String}

/-- A term of a triple is a variable or conceals its variables. -/
theorem var_or_conceals (h : Kind.acceptsAny Kind.forSubject v = true ∨
    Kind.acceptsAny Kind.forPredicate v = true ∨ Kind.acceptsAny Kind.forObject v = true) :
    Matches Token.var v.toList ∨ ∃ p, Conceals p ∧ Matches p v.toList := by
  -- variables apart, names are IRIs or have a prefix, and neither shows a mark
  have hName (h : Matches (Token.var ||| Token.iri ||| Token.prefixedName) v.toList) :
      Matches Token.var v.toList ∨ ∃ p, Conceals p ∧ Matches p v.toList := by
    rcases matches_alt_iff.mp h with h | hPrefixed
    · exact (matches_alt_iff.mp h).imp_right fun hIri => ⟨_, conceals_iri, hIri⟩
    · exact .inr ⟨_, conceals_markless (by decide), hPrefixed⟩
  rcases h with hSubject | hPredicate | hObject
  · exact hName (Kind.matches_of_subject hSubject)
  · exact (matches_alt_iff.mp (Kind.matches_of_predicate hPredicate)).elim hName
      fun hPath => .inr ⟨_, conceals_path, hPath⟩
  · rcases Kind.acceptsAny_forObject_iff.mp hObject with
      hVar | hIri | hPrefixed | hNative | hCircle | hPolygon
    · exact .inl hVar
    · exact .inr ⟨_, conceals_iri, hIri⟩
    · exact .inr ⟨_, conceals_markless (by decide), hPrefixed⟩
    · exact .inr ⟨_, conceals_native, hNative⟩
    · exact .inr ⟨_, conceals_circle, hCircle⟩
    · exact .inr ⟨_, conceals_markless (by decide), hPolygon⟩

/-- Variables as texts are variables as characters. -/
theorem mem_variablesIn : x ∈ variablesIn v ↔ x.toList ∈ variablesFrom 0 v.toList := by
  rw [variablesIn, List.mem_map]
  constructor
  · rintro ⟨s, hs, rfl⟩
    rwa [String.toList_ofList]
  · exact fun h => ⟨_, h, String.ofList_toList⟩

/-- An accepted variable mentions itself. -/
theorem mem_variablesIn_self (h : Kind.acceptsAny [.var] v = true) : v ∈ variablesIn v := by
  rw [mem_variablesIn, variablesFrom_var (Kind.acceptsAny_var_iff.mp h)]
  exact List.mem_singleton_self _

/-- A term mentions the variable that it is, and the variables that it encloses. -/
theorem mem_variablesIn_iff (h : Kind.acceptsAny Kind.forSubject v = true ∨
    Kind.acceptsAny Kind.forPredicate v = true ∨ Kind.acceptsAny Kind.forObject v = true) :
    x ∈ variablesIn v ↔
      Kind.acceptsAny [.var] x = true ∧ (x = v ∨ EnclosedIn x.toList v.toList) := by
  rw [mem_variablesIn]
  constructor
  · intro hx
    refine ⟨Kind.acceptsAny_var_iff.mpr (matches_of_mem_variablesFrom hx), ?_⟩
    rcases var_or_conceals h with hVar | ⟨p, hConceals, hText⟩
    · -- a variable mentions itself and nothing else
      rw [variablesFrom_var hVar, List.mem_singleton] at hx
      exact .inl (String.toList_inj.mp hx)
    · exact .inr (hConceals _ hText _ hx)
  · rintro ⟨hVar, rfl | hEnclosed⟩
    · exact mem_variablesIn.mp (mem_variablesIn_self hVar)
    · exact mem_of_enclosedIn hEnclosed

end

end SparqlSelect
