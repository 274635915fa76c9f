import SparqlSelect.Proofs.Fragment.Kinds
import SparqlSelect.Proofs.Fragment.Quoted
import SparqlSelect.Proofs.Pattern.Blanks
import SparqlSelect.Query.Text

/-!
# Where the terms of a triple end

The terms of a triple are written with a space between them, and paths, texts and circles may hold
spaces of their own. Still the text of a triple tells its terms. A subject has no white space, so it
ends at the first space. A predicate that went on after its end would go on with the start of an
object that holds a space, and such an object starts with a quote or an opening bracket. In a path
these never stand after white space, unless a slash or a bar is before the white space, and no path
ends there.

* `PathState.run?` — a path that is read character by character, as far as it matters here.
* `Carries` — where the texts of a pattern lead a reader, with a rule for each way to build a
  pattern.
* `carries_predicate` — no predicate stops a reader, and none ends before a step.
* `Triple.text_inj` — triples with the same text are the same.
-/

namespace SparqlSelect

open Pattern CharClass

-- ---------------------------------------------------------------------------
-- Reading a path
-- ---------------------------------------------------------------------------

/-- Where the reader of a path is: where nothing of a step has been read, in a step, or behind white
space that comes after something of a step. -/
inductive PathState where
  | before
  | inside
  | behind
deriving DecidableEq

/-- What joins the steps of a path. -/
def isJoint (c : Char) : Bool := c == '/' || c == '|'

/-- What an object that holds white space starts with. -/
def isOpener (c : Char) : Bool := c == '"' || c == '\'' || c == '('

namespace PathState

/-- Where the reader is after a character. White space that comes after something of a step is not
followed by an opener. -/
def next? (st : PathState) (c : Char) : Option PathState :=
  if isJoint c then some before
  else if isBlank c then some (if st = before then before else behind)
  else if st = behind ∧ isOpener c = true then none
  else some inside

/-- Where the reader is after a text. -/
def run? (st : PathState) (s : List Char) : Option PathState := s.foldlM next? st

/-- The path machine reads one text after another. -/
theorem run?_append (st : PathState) (s t : List Char) :
    st.run? (s ++ t) = (st.run? s).bind fun st' => st'.run? t := List.foldlM_append

end PathState

/-- A reader at one of some places reads every text of a pattern, and is at one of some others
then. -/
def Carries (A : PathState → Prop) (p : Pattern) (B : PathState → Prop) : Prop :=
  ∀ st, A st → ∀ s, Matches p s → ∃ st', B st' ∧ st.run? s = some st'

section Carries

variable {A B C : PathState → Prop} {p q : Pattern} {k : CharClass}

theorem carries_nothing : Carries A nothing A := by
  intro st hst s hs
  rw [matches_nothing_iff.mp hs]
  exact ⟨st, hst, rfl⟩

theorem carries_chars (h : ∀ st, A st → ∀ c, k.contains c = true → ∃ st', B st' ∧
    st.next? c = some st') : Carries A (chars k) B := by
  intro st hst s hs
  obtain ⟨c, hc, rfl⟩ := matches_chars_iff.mp hs
  obtain ⟨st', hst', hNext⟩ := h st hst c hc
  exact ⟨st', hst', by simp [PathState.run?, hNext]⟩

theorem Carries.seq (hp : Carries A p B) (hq : Carries B q C) : Carries A (p ++ q) C := by
  intro st hst s hs
  obtain ⟨t, u, ht, hu, rfl⟩ := matches_seq_iff.mp hs
  obtain ⟨mid, hMid, hFirst⟩ := hp st hst t ht
  obtain ⟨last, hLast, hSecond⟩ := hq mid hMid u hu
  exact ⟨last, hLast, by rw [PathState.run?_append, hFirst, Option.bind_some, hSecond]⟩

theorem Carries.alt (hp : Carries A p B) (hq : Carries A q B) : Carries A (p ||| q) B := by
  intro st hst s hs
  exact (matches_alt_iff.mp hs).elim (hp st hst s) (hq st hst s)

/-- What one repetition keeps, any number of them keeps. -/
theorem Carries.many (hp : Carries A p A) : Carries A (many p) A := by
  intro st hst s hs
  refine matches_many_induction
    (P := fun s => ∀ st, A st → ∃ st', A st' ∧ st.run? s = some st') ?_ ?_ hs st hst
  · exact fun st hst => ⟨st, hst, rfl⟩
  · intro t u ht _ ih st hst
    obtain ⟨mid, hMid, hFirst⟩ := hp st hst t ht
    obtain ⟨last, hLast, hSecond⟩ := ih mid hMid
    exact ⟨last, hLast, by rw [PathState.run?_append, hFirst, Option.bind_some, hSecond]⟩

/-- A machine started in fewer states ends in fewer. -/
theorem Carries.mono {A' B' : PathState → Prop} (h : Carries A p B) (hA : ∀ st, A' st → A st)
    (hB : ∀ st, B st → B' st) : Carries A' p B' := by
  intro st hst s hs
  obtain ⟨st', hst', hRun⟩ := h st (hA st hst) s hs
  exact ⟨st', hB st' hst', hRun⟩

/-- A pattern may be left out if the reader may stay where it is. -/
theorem Carries.optional (hp : Carries A p B) (hStay : ∀ st, A st → B st) :
    Carries A (optional p) B := hp.alt (carries_nothing.mono (fun _ h => h) hStay)

end Carries

-- ---------------------------------------------------------------------------
-- Predicates
-- ---------------------------------------------------------------------------

/-- Whether a class holds no white space and nothing that joins steps or opens an object. -/
def CharClass.isSolid (k : CharClass) : Bool :=
  k.avoidsBlank && ['/', '|', '"', '\'', '('].all fun c => !k.contains c

section Predicates

variable {k : CharClass} {p : Pattern}

/-- Anywhere. -/
def Anywhere (_ : PathState) : Prop := True

theorem not_isJoint_of_isSolid {c : Char} (hk : k.isSolid = true) (hc : k.contains c = true) :
    isBlank c = false ∧ isJoint c = false ∧ isOpener c = false := by
  obtain ⟨hBlank, hOthers⟩ := Bool.and_eq_true_iff.mp hk
  have hNot (d : Char) (hd : d ∈ ['/', '|', '"', '\'', '(']) : (c == d) = false := by
    rw [beq_eq_false_iff_ne]
    rintro rfl
    simpa [hc] using List.all_eq_true.mp hOthers c hd
  exact ⟨isBlank_of_avoidsBlank hBlank hc, by simp [isJoint, hNot], by simp [isOpener, hNot]⟩

/-- A solid character is in a step, wherever it is read. -/
theorem carries_solid (hk : k.isSolid = true) : Carries Anywhere (chars k) (· = .inside) := by
  refine carries_chars fun st _ c hc => ⟨.inside, rfl, ?_⟩
  obtain ⟨hBlank, hJoint, hOpener⟩ := not_isJoint_of_isSolid hk hc
  simp [PathState.next?, hBlank, hJoint, hOpener]

/-- What is not white space is read at any place that is not behind white space. -/
theorem carries_tight (hk : k.avoidsBlank = true) :
    Carries (· ≠ .behind) (chars k) (· ≠ .behind) := by
  refine carries_chars fun st hst c hc => ?_
  have hBlank := isBlank_of_avoidsBlank hk hc
  cases hJoint : isJoint c with
  | true => exact ⟨.before, by simp, by simp [PathState.next?, hJoint]⟩
  | false => exact ⟨.inside, by simp, by simp [PathState.next?, hJoint, hBlank, hst]⟩

theorem carries_blank : Carries Anywhere blanks Anywhere := by
  refine Carries.many (carries_chars fun st _ c hc => ?_)
  replace hc : isBlank c = true := hc
  simp only [Anywhere, true_and, PathState.next?, hc]
  split
  · exact ⟨_, rfl⟩
  · exact ⟨_, rfl⟩

/-- White space is no joint. -/
theorem isJoint_of_isBlank {c : Char} (hc : isBlank c = true) : isJoint c = false := by
  rw [isJoint, Bool.or_eq_false_iff, beq_eq_false_iff_ne, beq_eq_false_iff_ne]
  constructor
  · rintro rfl
    exact absurd hc (by decide)
  · rintro rfl
    exact absurd hc (by decide)

theorem carries_blanks_before : Carries (· = .before) blanks (· = .before) := by
  refine Carries.many (carries_chars ?_)
  rintro _ rfl c hc
  replace hc : isBlank c = true := hc
  exact ⟨.before, rfl, by simp [PathState.next?, hc, isJoint_of_isBlank hc]⟩

theorem carries_blanks_begun : Carries (· ≠ .before) blanks (· ≠ .before) := by
  refine Carries.many (carries_chars fun st hst c hc => ?_)
  replace hc : isBlank c = true := hc
  exact ⟨.behind, by simp, by simp [PathState.next?, hc, isJoint_of_isBlank hc, hst]⟩

/-- What is read inside a step leaves it inside. -/
theorem carries_solids (hk : k.isSolid = true) :
    Carries (· = .inside) (many (chars k)) (· = .inside) :=
  Carries.many ((carries_solid hk).mono (fun _ _ => trivial) fun _ h => h)

/-- A variable leaves the machine inside an element. -/
theorem carries_var : Carries Anywhere Token.var (· = .inside) :=
  ((carries_solid (by decide)).seq
    ((carries_solid (by decide)).mono (fun _ _ => trivial) fun _ h => h)).seq
    (carries_solids (by decide))

/-- An IRI may hold joints and brackets, but no white space, and closes with neither. -/
theorem carries_iri : Carries Anywhere Token.iri (· = .inside) :=
  ((((carries_solid (by decide)).mono (fun _ h => h) (by simp)).seq
    (Carries.many (carries_tight (by decide)))).seq
    ((carries_solid (by decide)).mono (fun _ _ => trivial) fun _ h => h))

theorem carries_prefixedName : Carries Anywhere Token.prefixedName (· = .inside) := by
  have hPrefix : Carries Anywhere (Token.prefixNameOf letter) Anywhere :=
    ((carries_solid (by decide)).seq (carries_solids (by decide))).mono (fun _ h => h)
      fun _ _ => trivial
  have hLocal : Carries Anywhere (oneOrMore (chars (CharClass.word.plus ['-', '.', '%'])))
      (· = .inside) := (carries_solid (by decide)).seq (carries_solids (by decide))
  have hColon : Carries Anywhere (char ':') Anywhere :=
    (carries_solid (by decide)).mono (fun _ h => h) fun _ _ => trivial
  exact ((hPrefix.optional fun _ h => h).seq hColon).seq hLocal

/-- A step is read from where none has been begun to where it has. -/
theorem carries_pathStep : Carries (· = .before) Token.pathStep (· ≠ .before) := by
  -- the parts of a step in their order, and where each of them takes the machine
  have hInside : ∀ st : PathState, st = .inside → st ≠ .before := by simp
  have hSign : Carries (· = .before) (optional (chars (anyOf '^' ['!']))) (· ≠ .behind) :=
    ((carries_tight (by decide)).mono (by simp) fun _ h => h).optional (by simp)
  have hOpen : Carries (· ≠ .behind) (optional (char '(')) (· ≠ .behind) :=
    (carries_tight (by decide)).optional fun _ h => h
  have hLead : Carries (· ≠ .behind) blanks Anywhere :=
    carries_blank.mono (fun _ _ => trivial) fun _ h => h
  have hName : Carries Anywhere (Token.iri ||| Token.prefixedName ||| char 'a') (· ≠ .before) :=
    ((carries_iri.alt carries_prefixedName).alt (carries_solid (by decide))).mono (fun _ h => h)
      hInside
  have hClose : Carries (· ≠ .before) (optional (char ')')) (· ≠ .before) :=
    ((carries_solid (by decide)).mono (fun _ _ => trivial) hInside).optional fun _ h => h
  have hTimes : Carries (· ≠ .before) (optional (chars (anyOf '*' ['+', '?']))) (· ≠ .before) :=
    ((carries_solid (by decide)).mono (fun _ _ => trivial) hInside).optional fun _ h => h
  exact (((((hSign.seq hOpen).seq hLead).seq hName).seq carries_blanks_begun).seq hClose).seq hTimes

/-- A path starts before its first element and ends after one has begun. -/
theorem carries_path : Carries (· = .before) Token.path (· ≠ .before) := by
  have hJoint : Carries Anywhere (chars (anyOf '/' ['|'])) (· = .before) := by
    refine carries_chars fun st _ c hc => ⟨.before, rfl, ?_⟩
    have hIs : isJoint c = true := by
      rcases contains_anyOf_two hc with rfl | rfl <;> rfl
    simp [PathState.next?, hIs]
  have hMore : Carries (· ≠ .before)
      (blanks ++ chars (anyOf '/' ['|']) ++ blanks ++ Token.pathStep) (· ≠ .before) :=
    (((carries_blank.mono (fun _ _ => trivial) fun _ h => h).seq hJoint).seq
      carries_blanks_before).seq carries_pathStep
  exact carries_pathStep.seq hMore.many

/-- No predicate stops a reader, and none ends where a step is still to come. -/
theorem carries_predicate : Carries (· = .before)
    (Token.var ||| Token.iri ||| Token.prefixedName ||| Token.path) (· ≠ .before) := by
  have hName {p : Pattern} (h : Carries Anywhere p (· = .inside)) :
      Carries (· = .before) p (· ≠ .before) := h.mono (fun _ _ => trivial) (by simp)
  exact (((hName carries_var).alt (hName carries_iri)).alt (hName carries_prefixedName)).alt
    carries_path

end Predicates

-- ---------------------------------------------------------------------------
-- Triples
-- ---------------------------------------------------------------------------

section Triples

variable {v w : String}

/-- After the end of a predicate and a space, no other predicate goes on with an opener. -/
theorem not_isOpener_of_predicates {c : Char} {rest : List Char}
    (hv : Kind.acceptsAny Kind.forPredicate v = true)
    (hw : Kind.acceptsAny Kind.forPredicate w = true)
    (hSplit : w.toList = v.toList ++ ' ' :: c :: rest) : isOpener c = false := by
  obtain ⟨st, hBegun, hShort⟩ := carries_predicate _ rfl _ (Kind.matches_of_predicate hv)
  obtain ⟨_, -, hLong⟩ := carries_predicate _ rfl _ (Kind.matches_of_predicate hw)
  -- behind a complete path a blank leads to the state in which only a joint may follow
  have hSpace : st.next? ' ' = some .behind := by
    have hBlank : isBlank ' ' = true := by decide
    simp [PathState.next?, hBlank, isJoint_of_isBlank hBlank, hBegun]
  rw [Bool.eq_false_iff]
  intro hOpener
  -- and an opener is not a joint
  have hStops : PathState.behind.next? c = none := by
    simp only [isOpener, Bool.or_eq_true, beq_iff_eq] at hOpener
    rcases hOpener with (rfl | rfl) | rfl <;> decide
  rw [hSplit, PathState.run?_append, hShort, Option.bind_some] at hLong
  simp [PathState.run?, hSpace, hStops] at hLong

theorem following_circle {c : Char} (h : c ≠ '(') : Token.circle.following c = [] := by
  unfold Token.circle
  -- the first part cannot be empty, so every text starts in it
  repeat' apply following_append
  all_goals first | exact following_char h | rfl

theorem following_polygon {c : Char} (h : c ≠ '"') : Token.polygon.following c = [] := by
  unfold Token.polygon
  repeat' apply following_append
  all_goals first | exact following_char h | rfl

/-- An object that holds a space starts with an opener. -/
theorem exists_opener_of_object {t u : List Char} (h : Kind.acceptsAny Kind.forObject v = true)
    (hSplit : v.toList = t ++ ' ' :: u) : ∃ c rest, t = c :: rest ∧ isOpener c = true := by
  have hPlain {p : Pattern} (hText : Matches p v.toList) (hp : p.avoidsBlank = true) : False := by
    have hNone := isBlank_of_matches hText hp ' ' (by simp [hSplit])
    exact absurd hNone (by decide)
  -- a text that can start with openers only does not start with the space
  have hFirst {p : Pattern} (hText : Matches p v.toList)
      (hStart : ∀ d, isOpener d = false → p.following d = []) :
      ∃ c rest, t = c :: rest ∧ isOpener c = true := by
    rw [hSplit] at hText
    cases t with
    | nil => exact absurd hText (not_matches_cons (hStart ' ' (by decide)) u)
    | cons d rest =>
      cases hd : isOpener d with
      | true => exact ⟨d, rest, rfl, hd⟩
      | false => exact absurd hText (not_matches_cons (hStart d hd) _)
  have hOther {c d : Char} (hd : isOpener d = false) (hc : isOpener c = true) : d ≠ c := by
    rintro rfl
    rw [hc] at hd
    cases hd
  rcases Kind.acceptsAny_forObject_iff.mp h with
    hVar | hIri | hName | hNative | hCircle | hPolygon
  · exact (hPlain hVar (by decide)).elim
  · exact (hPlain hIri (by decide)).elim
  · exact (hPlain hName (by decide)).elim
  · rcases matches_alt_iff.mp hNative with hNumber | hText
    · exact (hPlain hNumber (by decide)).elim
    · refine hFirst hText fun d hd => following_append ?_ rfl
      exact following_text (hOther hd rfl) (hOther hd rfl)
  · exact hFirst hCircle fun d hd => following_circle (hOther hd rfl)
  · exact hFirst hPolygon fun d hd => following_polygon (hOther hd rfl)

/-- The longer of two predicates would go on with the start of an object. -/
theorem not_longer_predicate {o o' : String} {t : List Char}
    (hv : Kind.acceptsAny Kind.forPredicate v = true)
    (hw : Kind.acceptsAny Kind.forPredicate w = true)
    (ho : Kind.acceptsAny Kind.forObject o = true) (hLonger : w.toList = v.toList ++ ' ' :: t)
    (hRest : o.toList = t ++ ' ' :: o'.toList) : False := by
  obtain ⟨c, rest, rfl, hOpener⟩ := exists_opener_of_object ho hRest
  rw [not_isOpener_of_predicates hv hw hLonger] at hOpener
  cases hOpener

/-- A predicate and an object are told from what they are written as. -/
theorem predicate_object_inj {o o' : String} (hv : Kind.acceptsAny Kind.forPredicate v = true)
    (hw : Kind.acceptsAny Kind.forPredicate w = true)
    (ho : Kind.acceptsAny Kind.forObject o = true) (ho' : Kind.acceptsAny Kind.forObject o' = true)
    (h : v.toList ++ ' ' :: o.toList = w.toList ++ ' ' :: o'.toList) : v = w ∧ o = o' := by
  -- if one predicate were longer, the other text would go on with a blank where it cannot
  rcases List.append_eq_append_iff.mp h with ⟨t, hLonger, hRest⟩ | ⟨t, hLonger, hRest⟩
  · cases t with
    | nil =>
      rw [List.append_nil] at hLonger
      exact ⟨(String.toList_inj.mp hLonger).symm, String.toList_inj.mp (List.cons.inj hRest).2⟩
    | cons c t =>
      obtain ⟨rfl, hObject⟩ := List.cons.inj hRest
      exact (not_longer_predicate hv hw ho hLonger hObject).elim
  · cases t with
    | nil =>
      rw [List.append_nil] at hLonger
      exact ⟨String.toList_inj.mp hLonger, (String.toList_inj.mp (List.cons.inj hRest).2).symm⟩
    | cons c t =>
      obtain ⟨rfl, hObject⟩ := List.cons.inj hRest
      exact (not_longer_predicate hw hv ho' hLonger hObject).elim

/-- No subject has a blank in it. -/
theorem space_not_mem_subject (h : Kind.acceptsAny Kind.forSubject v = true) : ' ' ∉ v.toList :=
  fun hMem => absurd (isBlank_of_matches (Kind.matches_of_subject h) (by decide) ' ' hMem)
    (by decide)

/-- Triples of terms that fit are told from their texts. -/
theorem Triple.text_inj {t t' : Triple} (hs : Kind.acceptsAny Kind.forSubject t.subject = true)
    (hs' : Kind.acceptsAny Kind.forSubject t'.subject = true)
    (hp : Kind.acceptsAny Kind.forPredicate t.predicate = true)
    (hp' : Kind.acceptsAny Kind.forPredicate t'.predicate = true)
    (ho : Kind.acceptsAny Kind.forObject t.object = true)
    (ho' : Kind.acceptsAny Kind.forObject t'.object = true) (h : t.text = t'.text) : t = t' := by
  have hSplit (t : Triple) : t.text.toList =
      t.subject.toList ++ ' ' :: (t.predicate.toList ++ ' ' :: t.object.toList ++ [' ', '.']) := by
    simp [Triple.text]
  have hText := congrArg String.toList h
  rw [hSplit, hSplit] at hText
  -- subject and predicate end at a space that the longest reading finds, one after the other
  obtain ⟨hSubject, hRest⟩ :=
    append_cons_inj (space_not_mem_subject hs) (space_not_mem_subject hs') hText
  obtain ⟨hPredicate, hObject⟩ :=
    predicate_object_inj hp hp' ho ho' (List.append_cancel_right hRest)
  obtain ⟨s, p, o⟩ := t
  obtain ⟨s', p', o'⟩ := t'
  rw [Triple.mk.injEq]
  exact ⟨String.toList_inj.mp hSubject, hPredicate, hObject⟩

end Triples

end SparqlSelect
