import SparqlSelect.Compile.Session
import SparqlSelect.Proofs.Compile.Drafts

/-!
# What a session leaves

A step performed in place is the step that gives a new draft or fails: it checks all that it writes
before it writes anything, and it keeps a subject last. So a step that fails leaves the draft that
it found, a session comes to the same without such steps, and what it has written at the end was
written by the others, element by element.

* `Draft.attempt_eq` — one step in place, as a step that gives a new draft.
* `Draft.accepted_step` — how the steps that do not fail are found.
* `Draft.session_writes` — the elements of a session.
* `Draft.session_without_failures` — a session with and without the steps that fail.
-/

namespace SparqlSelect

variable {limit : Nat} {d d' : Draft} {step : DraftStep} {steps : List DraftStep}

-- ---------------------------------------------------------------------------
-- One step
-- ---------------------------------------------------------------------------

/-- The draft that a step gives for a draft, if it does not fail. -/
def DraftStep.apply (limit : Nat) (d : Draft) : DraftStep → Except Failure Draft
  | .triple subject predicate object => d.triple subject predicate object
  | .also subject predicate object => d.also subject predicate object
  | .optional subject predicate object => d.optional subject predicate object
  | .filter expression => d.filter limit expression
  | .union branches => .ok (d.union branches)
  | .nest g => .ok (d.nest g)
  | .bind expression var => d.bind expression var

/-- A failure comes with the draft that was there before, a new draft with nothing else. -/
def Draft.kept (d : Draft) : Except Failure Draft → Except Failure Unit × Draft
  | .ok next => (.ok (), next)
  | .error f => (.error f, d)

/-- A computation in place and then another. -/
theorem Drafting.run_bind {α β : Type} (d : Draft) (x : Drafting α) (f : α → Drafting β) :
    (x >>= f).run.run d =
      match x.run.run d with
      | (.ok a, d') => (f a).run.run d'
      | (.error e, d') => (.error e, d') := by
  change (match x.run.run d with
    | (a, d') => (ExceptT.bindCont f a).run d') = _
  obtain ⟨outcome, d'⟩ := x.run.run d
  cases outcome <;> rfl

/-- What is checked first and then written gives a new draft or leaves the old one. -/
theorem Draft.kept_check {α : Type} (d : Draft) (check : Except Failure α)
    {write : α → Drafting Unit} {next : α → Draft}
    (hWrite : ∀ a, (write a).run.run d = (.ok (), next a)) :
    ((liftM check : Drafting α) >>= write).run.run d =
      d.kept (check >>= fun a => .ok (next a)) := by
  cases check with
  | error f => rfl
  | ok a => exact hWrite a

/-- Looking for the subject of a triple writes nothing. -/
theorem Drafting.run_subjectFor (d : Draft) (subject : Json) :
    (Drafting.subjectFor subject).run.run d =
      ((if subject.isSet then some subject else d.subject.map .str).elim
        (.error Failure.noSubject) .ok, d) := by
  unfold Drafting.subjectFor
  by_cases hSet : subject.isSet = true
  · rw [if_pos hSet, if_pos hSet]
    rfl
  · rw [if_neg hSet, if_neg hSet]
    -- what the draft keeps decides
    obtain ⟨group, kept⟩ := d
    cases kept <;> rfl

/-- **A step in place.** It leaves the draft that the step gives or, if it fails, the draft that it
found. -/
theorem Draft.attempt_eq (limit : Nat) (d : Draft) (step : DraftStep) :
    d.attempt limit step = d.kept (step.apply limit d) := by
  cases step with
  | triple subject predicate object => exact d.kept_check _ fun _ => rfl
  | also subject predicate object =>
    change (Drafting.subjectFor subject >>= _).run.run d = d.kept (d.also subject predicate object)
    rw [Drafting.run_bind, Drafting.run_subjectFor, Draft.also]
    -- there is no subject at all, or the triple is checked with the one that was found
    cases (if subject.isSet then some subject else d.subject.map .str) with
    | none => rfl
    | some found => exact d.kept_check _ fun _ => rfl
  | optional subject predicate object => exact d.kept_check _ fun _ => rfl
  | filter expression => exact d.kept_check _ fun _ => rfl
  | union branches =>
    cases branches with
    | nil => rfl
    | cons b rest => rfl
  | nest g => rfl
  | bind expression var => exact d.kept_check _ fun _ => rfl

-- ---------------------------------------------------------------------------
-- Sessions
-- ---------------------------------------------------------------------------

/-- A step either gives a new draft or fails and leaves the draft as it was; a session goes on from
there, and the step is among those that do not fail or it is not. -/
theorem Draft.accepted_step (limit : Nat) (d : Draft) (step : DraftStep) (rest : List DraftStep) :
    (∃ next, step.apply limit d = .ok next ∧
        d.session limit (step :: rest) = next.session limit rest ∧
      d.accepted limit (step :: rest) = step :: next.accepted limit rest) ∨
    (∃ f, step.apply limit d = .error f ∧ d.session limit (step :: rest) = d.session limit rest ∧
      d.accepted limit (step :: rest) = d.accepted limit rest) := by
  have hStep := d.attempt_eq limit step
  -- the step is made or left out, and both runs go on from what it left
  cases hApply : step.apply limit d with
  | ok next =>
    rw [hApply] at hStep
    refine .inl ⟨next, rfl, ?_, ?_⟩
    · rw [session, List.foldl_cons, hStep]
      rfl
    · rw [accepted, hStep]
      rfl
  | error f =>
    rw [hApply] at hStep
    refine .inr ⟨f, rfl, ?_, ?_⟩
    · rw [session, List.foldl_cons, hStep]
      rfl
    · rw [accepted, hStep]
      rfl

/-- A step that gives a new draft is taken when it comes first. -/
theorem Draft.session_cons_of_ok {next : Draft} (h : step.apply limit d = .ok next) :
    d.session limit (step :: steps) = next.session limit steps ∧
      d.accepted limit (step :: steps) = step :: next.accepted limit steps := by
  obtain ⟨next', hNext, hSession, hAccepted⟩ | ⟨f, hFails, -⟩ := d.accepted_step limit step steps
  · rw [h] at hNext
    cases hNext
    exact ⟨hSession, hAccepted⟩
  · rw [h] at hFails
    cases hFails

/-- A session comes to the same if the steps that fail are left out. -/
theorem Draft.session_accepted (limit : Nat) (d : Draft) (steps : List DraftStep) :
    d.session limit (d.accepted limit steps) = d.session limit steps := by
  induction steps generalizing d with
  | nil => rfl
  | cons step rest ih =>
    obtain ⟨next, hNext, hSession, hAccepted⟩ | ⟨f, -, hSession, hAccepted⟩ :=
      d.accepted_step limit step rest
    · rw [hAccepted, hSession, (session_cons_of_ok hNext).1]
      exact ih next
    · rw [hAccepted, hSession]
      exact ih d

/-- The steps that do not fail do not fail without the others either. -/
theorem Draft.accepted_accepted (limit : Nat) (d : Draft) (steps : List DraftStep) :
    d.accepted limit (d.accepted limit steps) = d.accepted limit steps := by
  induction steps generalizing d with
  | nil => rfl
  | cons step rest ih =>
    obtain ⟨next, hNext, -, hAccepted⟩ | ⟨f, -, -, hAccepted⟩ := d.accepted_step limit step rest
    · rw [hAccepted, (session_cons_of_ok hNext).2]
      exact congrArg _ (ih next)
    · rw [hAccepted]
      exact ih d

-- ---------------------------------------------------------------------------
-- What is written
-- ---------------------------------------------------------------------------

/-- What a step writes: its own terms as an element that was checked for its place, or a union or a
group as it was handed in. -/
inductive DraftStep.Writes : DraftStep → Element → Prop
  | triple {t : Triple} : t.Fits →
    Writes (.triple (.str t.subject) (.str t.predicate) (.str t.object)) (.triple t)
  | also {t : Triple} {subject : Json} : t.Fits →
    (subject.isSet = true → subject = .str t.subject) →
    Writes (.also subject (.str t.predicate) (.str t.object)) (.triple t)
  | optional {t : Triple} : t.Fits →
    Writes (.optional (.str t.subject) (.str t.predicate) (.str t.object))
      (.optional ⟨none, [.triple t]⟩)
  | filter {e : String} : Kind.acceptsAny Kind.forFilter e = true →
    Writes (.filter (.str e)) (.filter e)
  | union (branches : List Branch) : Writes (.union branches) (.union branches)
  | nest (g : Group) : Writes (.nest g) (.nested (.group g))
  | bind {b : Binding} : b.Fits → Writes (.bind (.str b.expression) (.str b.var)) (.bind b)

/-- Whether a step writes an element if it does not fail: a union of no branches is not written. -/
def DraftStep.isWriting : DraftStep → Bool
  | .union branches => !branches.isEmpty
  | _ => true

/-- A step that gives a new draft adds the element that it writes, if it writes one. -/
theorem DraftStep.apply_eq_ok {next : Draft} (h : step.apply limit d = .ok next) :
    step.isWriting = false ∧ next.group.elements = d.group.elements ∨
    step.isWriting = true ∧
      ∃ e, step.Writes e ∧ next.group.elements = d.group.elements ++ [e] := by
  -- one case for each method: what was checked is what is written
  cases step with
  | triple subject predicate object =>
    obtain ⟨t, ht, rfl⟩ := Draft.triple_eq_ok_iff.mp h
    obtain ⟨rfl, rfl, rfl, hFits⟩ := checkTriple_eq_ok_iff.mp ht
    exact .inr ⟨rfl, _, .triple hFits, rfl⟩
  | also subject predicate object =>
    obtain ⟨found, t, hGiven, ht, rfl⟩ := Draft.also_eq_ok h
    obtain ⟨rfl, rfl, rfl, hFits⟩ := checkTriple_eq_ok_iff.mp ht
    exact .inr ⟨rfl, _, .also hFits fun hSet => (hGiven hSet).symm, rfl⟩
  | optional subject predicate object =>
    obtain ⟨t, ht, rfl⟩ := Draft.optional_eq_ok_iff.mp h
    obtain ⟨rfl, rfl, rfl, hFits⟩ := checkTriple_eq_ok_iff.mp ht
    exact .inr ⟨rfl, _, .optional hFits, rfl⟩
  | filter expression =>
    obtain ⟨e, rfl, hFits, rfl⟩ := Draft.filter_eq_ok_iff.mp h
    exact .inr ⟨rfl, _, .filter (Kind.acceptsAny_of_within hFits), rfl⟩
  | union branches =>
    cases h
    cases branches with
    | nil => exact .inl ⟨rfl, rfl⟩
    | cons b rest => exact .inr ⟨rfl, _, .union _, rfl⟩
  | nest g =>
    cases h
    exact .inr ⟨rfl, _, .nest g, rfl⟩
  | bind expression var =>
    obtain ⟨b, hb, hAdd⟩ := bind_eq_ok_iff.mp h
    cases hAdd
    obtain ⟨rfl, rfl, hFits⟩ := checkBinding_eq_ok_iff.mp hb
    exact .inr ⟨rfl, _, .bind hFits, rfl⟩

/-- A session adds one element for each step that does not fail and writes, in their order. -/
theorem Draft.session_writes (limit : Nat) (d : Draft) (steps : List DraftStep) :
    ∃ written,
      List.Forall₂ DraftStep.Writes ((d.accepted limit steps).filter (·.isWriting)) written ∧
      (d.session limit steps).group.elements = d.group.elements ++ written := by
  induction steps generalizing d with
  | nil => exact ⟨[], .nil, (List.append_nil _).symm⟩
  | cons step rest ih =>
    obtain ⟨next, hNext, hSession, hAccepted⟩ | ⟨f, -, hSession, hAccepted⟩ :=
      d.accepted_step limit step rest
    · -- a step that is made writes nothing or one element; one that fails leaves all as it is
      obtain ⟨written, hWritten, hElements⟩ := ih next
      rw [hAccepted, hSession, hElements]
      obtain ⟨hSilent, hSame⟩ | ⟨hWriting, e, he, hAdded⟩ := DraftStep.apply_eq_ok hNext
      · refine ⟨written, ?_, by rw [hSame]⟩
        rwa [List.filter_cons_of_neg (by rw [hSilent]; exact Bool.false_ne_true)]
      · refine ⟨e :: written, ?_, by rw [hAdded, List.append_assoc]; rfl⟩
        rw [List.filter_cons_of_pos hWriting]
        exact .cons he hWritten
    · rw [hAccepted, hSession]
      exact ih d

/-- **A step that fails leaves no trace.** A session comes to the same draft, elements and kept
subject alike, without the steps that fail; the others do not fail then either; and the draft holds
what they write, every triple, condition and binding of them checked for its place. -/
theorem session_without_failures (limit : Nat) (origin : Option String) (steps : List DraftStep) :
    (Draft.start origin).session limit ((Draft.start origin).accepted limit steps) =
        (Draft.start origin).session limit steps ∧
      (Draft.start origin).accepted limit ((Draft.start origin).accepted limit steps) =
        (Draft.start origin).accepted limit steps ∧
      List.Forall₂ DraftStep.Writes
        (((Draft.start origin).accepted limit steps).filter (·.isWriting))
        ((Draft.start origin).session limit steps).group.elements := by
  refine ⟨Draft.session_accepted .., Draft.accepted_accepted .., ?_⟩
  obtain ⟨written, hWritten, hElements⟩ := (Draft.start origin).session_writes limit steps
  rwa [hElements]

-- the second triple fails on its predicate, so the third takes the subject of the first
example : ((Draft.start none).session 0
    [.triple (.str "?a") (.str "a") (.str "x:T"), .triple (.str "?b") (.str "\"p\"") (.str "?o"),
      .also .null (.str "x:p") (.str "?v")]).group.triples =
    [⟨"?a", "a", "x:T"⟩, ⟨"?a", "x:p", "?v"⟩] := by decide +kernel

end SparqlSelect
