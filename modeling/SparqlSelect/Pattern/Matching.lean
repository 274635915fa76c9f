import SparqlSelect.Pattern.Basic

/-!
# Testing a text against a pattern

A text is read character by character while a list of patterns is kept, one of which the rest of the
text has to match. Reading `c` replaces each pattern by its partial derivatives, the patterns of
what may follow `c`. There are finitely many of them, so the list stays short.

* `Pattern.accepts` — whether a whole text matches, and `accepts_iff`, that this is `Matches`.
* `Pattern.matchLength?` — the length of the longest matching start of a text.
-/

namespace SparqlSelect.Pattern

/-- Whether the empty text matches. -/
def acceptsEmpty : Pattern → Bool
  | nothing => true
  | chars _ => false
  | seq p q => p.acceptsEmpty && q.acceptsEmpty
  | alt p q => p.acceptsEmpty || q.acceptsEmpty
  | many _ => true

/-- One pattern after another, without an empty first part. -/
def andThen (p q : Pattern) : Pattern :=
  match p with
  | nothing => q
  | p => seq p q

/-- The patterns of what may follow a character in a matching text. -/
def following (c : Char) : Pattern → List Pattern
  | nothing => []
  | chars k => if k.contains c then [nothing] else []
  | seq p q =>
    (p.following c).map (·.andThen q) ++ (if p.acceptsEmpty then q.following c else [])
  | alt p q => p.following c ++ q.following c
  | many p => (p.following c).map (·.andThen (many p))

/-- The patterns of what may follow a character, for any of several patterns. -/
def step (states : List Pattern) (c : Char) : List Pattern :=
  (states.flatMap (following c)).eraseDups

/-- Whether a text matches one of several patterns. -/
def acceptsAny (states : List Pattern) (s : List Char) : Bool :=
  (s.foldl step states).any acceptsEmpty

/-- Whether a text matches a pattern. -/
def accepts (p : Pattern) (s : List Char) : Bool := acceptsAny [p] s

/-- The length of the longest start of a text that matches one of several patterns. -/
def longestFrom (states : List Pattern) : List Char → Option Nat
  | [] => if states.any acceptsEmpty then some 0 else none
  | c :: rest =>
    let next := step states c
    match (if next.isEmpty then none else longestFrom next rest) with
    | some n => some (n + 1)
    | none => if states.any acceptsEmpty then some 0 else none

/-- The length of the longest start of a text that matches. -/
def matchLength? (p : Pattern) (s : List Char) : Option Nat := longestFrom [p] s

/-- The rest of a text after its longest start that matches. -/
def after? (p : Pattern) (s : List Char) : Option (List Char) := (p.matchLength? s).map s.drop

-- ---------------------------------------------------------------------------
-- What acceptance means
-- ---------------------------------------------------------------------------

theorem matches_nothing_iff {s : List Char} : Matches nothing s ↔ s = [] :=
  ⟨fun h => by cases h; rfl, fun h => h ▸ .nothing⟩

theorem matches_chars_iff {k : CharClass} {s : List Char} :
    Matches (chars k) s ↔ ∃ c, k.contains c = true ∧ s = [c] :=
  ⟨fun h => by cases h with | chars hc => exact ⟨_, hc, rfl⟩, fun ⟨_, hc, hs⟩ => hs ▸ .chars hc⟩

/-- A text of two patterns in a row is a text of each, one behind the other. -/
theorem matches_seq_iff {p q : Pattern} {s : List Char} :
    Matches (seq p q) s ↔ ∃ t u, Matches p t ∧ Matches q u ∧ s = t ++ u :=
  ⟨fun h => by cases h with | seq hp hq => exact ⟨_, _, hp, hq, rfl⟩,
    fun ⟨_, _, hp, hq, hs⟩ => hs ▸ .seq hp hq⟩

/-- A text of either pattern. -/
theorem matches_alt_iff {p q : Pattern} {s : List Char} :
    Matches (alt p q) s ↔ Matches p s ∨ Matches q s :=
  ⟨fun h => by cases h with
    | left hp => exact .inl hp
    | right hq => exact .inr hq,
    fun h => h.elim .left .right⟩

theorem matches_many_nil {p : Pattern} : Matches (many p) [] := .stop

/-- What holds of nothing and is kept by one more text of a pattern holds of its repetitions. -/
theorem matches_many_induction {p : Pattern} {P : List Char → Prop} (hStop : P [])
    (hMore : ∀ t u, Matches p t → Matches (many p) u → P u → P (t ++ u)) {s : List Char}
    (h : Matches (many p) s) : P s := by
  generalize hr : many p = r at h
  induction h with
  | stop => exact hStop
  | more hp hm _ ih =>
    cases hr
    exact hMore _ _ hp hm (ih rfl)
  | nothing => cases hr
  | chars _ => cases hr
  | seq _ _ _ _ => cases hr
  | left _ _ => cases hr
  | right _ _ => cases hr

/-- A non-empty repetition starts with a non-empty text of the pattern. -/
theorem matches_many_cons_iff {p : Pattern} {c : Char} {s : List Char} :
    Matches (many p) (c :: s) ↔ ∃ t u, Matches p (c :: t) ∧ Matches (many p) u ∧ s = t ++ u := by
  constructor
  · intro h
    refine matches_many_induction (P := fun l => c :: s = l →
      ∃ t u, Matches p (c :: t) ∧ Matches (many p) u ∧ s = t ++ u) ?_ ?_ h rfl
    · intro hl
      cases hl
    · intro t u hp hm ih hl
      -- an empty first text leaves the rest of the repetition as it is
      cases t with
      | nil => exact ih hl
      | cons d t =>
        cases hl
        exact ⟨t, u, hp, hm, rfl⟩
  · rintro ⟨t, u, hp, hm, rfl⟩
    exact .more hp hm

/-- Whether a pattern has the empty text is found out by its shape. -/
theorem acceptsEmpty_iff {p : Pattern} : p.acceptsEmpty = true ↔ Matches p [] := by
  induction p with
  | nothing => simp [acceptsEmpty, matches_nothing_iff]
  | chars k => simp [acceptsEmpty, matches_chars_iff]
  | seq p q ihp ihq =>
    simp only [acceptsEmpty, Bool.and_eq_true, ihp, ihq, matches_seq_iff]
    constructor
    · rintro ⟨hp, hq⟩
      exact ⟨[], [], hp, hq, rfl⟩
    · rintro ⟨t, u, hp, hq, h⟩
      obtain ⟨rfl, rfl⟩ := List.append_eq_nil_iff.1 h.symm
      exact ⟨hp, hq⟩
  | alt p q ihp ihq => simp [acceptsEmpty, ihp, ihq, matches_alt_iff]
  | many p _ => simp [acceptsEmpty, matches_many_nil]

/-- Leaving out what is trivial in a sequence makes no difference. -/
theorem matches_andThen_iff {p q : Pattern} {s : List Char} :
    Matches (p.andThen q) s ↔ Matches (seq p q) s := by
  cases p with
  | nothing => simp [andThen, matches_seq_iff, matches_nothing_iff]
  | _ => rfl

/-- A text is matched character by character, by what may follow the first one. -/
theorem matches_cons_iff {p : Pattern} {c : Char} {s : List Char} :
    Matches p (c :: s) ↔ ∃ q ∈ p.following c, Matches q s := by
  induction p generalizing s with
  | nothing => simp [following, matches_nothing_iff]
  | chars k =>
    by_cases h : k.contains c = true
    · simp only [following, h, matches_chars_iff, if_true, List.mem_singleton, exists_eq_left,
        matches_nothing_iff]
      grind
    · simp only [following, h, matches_chars_iff]
      grind
  | seq p q ihp ihq =>
    simp only [following, List.mem_append, matches_seq_iff]
    constructor
    · rintro ⟨t, u, hp, hq, h⟩
      cases t with
      | nil =>
        obtain ⟨r, hr, hs⟩ := ihq.1 (show Matches q (c :: s) by simpa [h] using hq)
        exact ⟨r, .inr (by simp [acceptsEmpty_iff.2 hp, hr]), hs⟩
      | cons d t =>
        obtain ⟨rfl, rfl⟩ := List.cons.inj h
        obtain ⟨r, hr, hs⟩ := ihp.1 hp
        exact ⟨_, .inl (List.mem_map_of_mem hr),
          matches_andThen_iff.2 (matches_seq_iff.2 ⟨t, u, hs, hq, rfl⟩)⟩
    · rintro ⟨r, hr | hr, hs⟩
      · obtain ⟨r', hr', rfl⟩ := List.mem_map.1 hr
        obtain ⟨t, u, ht, hu, rfl⟩ := matches_seq_iff.1 (matches_andThen_iff.1 hs)
        exact ⟨c :: t, u, ihp.2 ⟨r', hr', ht⟩, hu, rfl⟩
      · split at hr
        · rename_i hp
          exact ⟨[], c :: s, acceptsEmpty_iff.1 hp, ihq.2 ⟨r, hr, hs⟩, rfl⟩
        · simp at hr
  | alt p q ihp ihq =>
    simp only [following, matches_alt_iff, ihp, ihq, List.mem_append]
    grind
  | many p ih =>
    simp only [following, matches_many_cons_iff]
    constructor
    · rintro ⟨t, u, hp, hm, rfl⟩
      obtain ⟨r, hr, hs⟩ := ih.1 hp
      exact ⟨_, List.mem_map_of_mem hr, matches_andThen_iff.2 (.seq hs hm)⟩
    · rintro ⟨r, hr, hs⟩
      obtain ⟨r', hr', rfl⟩ := List.mem_map.1 hr
      obtain ⟨t, u, ht, hu, rfl⟩ := matches_seq_iff.1 (matches_andThen_iff.1 hs)
      exact ⟨t, u, ih.2 ⟨r', hr', ht⟩, hu, rfl⟩

/-- One of some patterns has a text exactly if the search over all of them finds it. -/
theorem acceptsAny_iff {states : List Pattern} {s : List Char} :
    acceptsAny states s = true ↔ ∃ p ∈ states, Matches p s := by
  unfold acceptsAny
  induction s generalizing states with
  | nil => simp [acceptsEmpty_iff]
  | cons c s ih =>
    rw [List.foldl_cons, ih]
    simp only [step, List.mem_eraseDups, List.mem_flatMap, matches_cons_iff (c := c)]
    grind

/-- A text is accepted exactly if the pattern matches it. -/
theorem accepts_iff {p : Pattern} {s : List Char} : p.accepts s = true ↔ Matches p s := by
  simp [accepts, acceptsAny_iff]

end SparqlSelect.Pattern
