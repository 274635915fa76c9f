import SparqlSelect.Proofs.Compile.Drafts

/-!
# What a spec writes

A spec keeps what stands in the pattern of its observable and adds to it: first a triple for its
variable, and then what its clauses give. On the IRI of a geospatial function these are triples and
alternatives, on any other IRI conditions, at the end of them one expression for all bounds. A
search by place goes through the same clauses, but it writes no triple for the spec and each bound
as a condition of its own.

* `constrain_eq_ok_iff`, `applyClauses_plain_iff` — when the clauses can be gone through, and what
  they give.
* `applySpec_plain_iff`, `applySpec_plain`, `applySpec_geospatial` — the spec of an observable.
* `applyLocationSpec_plain`, `applyLocationSpec_geospatial` — the spec of a search by place.
-/

namespace SparqlSelect

-- ---------------------------------------------------------------------------
-- What clauses give
-- ---------------------------------------------------------------------------

namespace Settings

variable (s : Settings) (spec : FilterSpec)

/-- The fragment that a clause of a spec gives for its variable, if it was chosen and gives one. -/
def fragment? (c : Clause) : Option String :=
  if c.isSelected then (s.translate c spec.var spec.datatype).outcome.toOption.join else none

/-- The fragment that a clause of a spec gives for a place, if it was chosen and gives one. -/
def place? (c : Clause) : Option String :=
  if c.isSelected then (s.translate c none spec.datatype).outcome.toOption.join else none

/-- The condition that a clause gives by itself: every fragment but that of a range. -/
def condition? (c : Clause) : Option String :=
  if (FilterKind.of c.name).toOption = some .range then none else s.fragment? spec c

/-- The bound that a clause gives. -/
def bound? (c : Clause) : Option Bound :=
  if (FilterKind.of c.name).toOption = some .range then
    (s.fragment? spec c).map fun e => ⟨c.value, comparisonSymbol c.comparison, e⟩
  else none

/-- The fragments that the clauses of a spec give, in their order. -/
def fragments : List String := spec.clauses.filterMap (s.fragment? spec)

/-- The conditions that the clauses of a spec give by themselves, in their order. -/
def conditions : List String := spec.clauses.filterMap (s.condition? spec)

/-- The bounds that the clauses of a spec give, in their order. -/
def bounds : List Bound := spec.clauses.filterMap (s.bound? spec)

variable {s spec} {c : Clause}

/-- What a selected clause is translated to on the variable of its spec. -/
theorem fragment?_eq_some_iff {e : String} :
    s.fragment? spec c = some e ↔
      c.isSelected = true ∧ (s.translate c spec.var spec.datatype).outcome = .ok (some e) := by
  cases hSelected : c.isSelected <;> simp [fragment?, hSelected, join_toOption_eq_some_iff]

/-- What a selected clause is translated to without a variable. -/
theorem place?_eq_some_iff {e : String} :
    s.place? spec c = some e ↔
      c.isSelected = true ∧ (s.translate c none spec.datatype).outcome = .ok (some e) := by
  cases hSelected : c.isSelected <;> simp [place?, hSelected, join_toOption_eq_some_iff]

/-- Every condition is a fragment. -/
theorem condition?_eq_some {e : String} (h : s.condition? spec c = some e) :
    s.fragment? spec c = some e := by
  unfold condition? at h
  split at h
  · cases h
  · exact h

/-- Every bound carries a fragment of a range. -/
theorem bound?_eq_some {b : Bound} (h : s.bound? spec c = some b) :
    (FilterKind.of c.name).toOption = some .range ∧ s.fragment? spec c = some b.fragment := by
  unfold bound? at h
  split at h
  · rename_i hRange
    obtain ⟨e, he, rfl⟩ := Option.map_eq_some_iff.mp h
    exact ⟨hRange, he⟩
  · cases h

end Settings

/-- A triple that was checked and written for three terms. An empty subject stands for the one that
was written before. -/
structure Triple.IsFor (subject predicate object : String) (t : Triple) : Prop where
  fits : t.Fits
  subject : subject ≠ "" → t.subject = subject
  predicate : t.predicate = predicate
  object : t.object = object

/-- A triple that was written for terms with a subject is the triple of these terms. -/
theorem Triple.IsFor.eq {t : Triple} {subject predicate object : String}
    (h : t.IsFor subject predicate object) (hSubject : subject ≠ "") :
    t = ⟨subject, predicate, object⟩ := by
  obtain ⟨-, hS, hP, hO⟩ := h
  obtain ⟨_, _, _⟩ := t
  simp only at hS hP hO
  rw [hS hSubject, hP, hO]

/-- A branch that holds one triple. -/
def Triple.branch (t : Triple) : Branch := .group ⟨none, [.triple t]⟩

/-- The element that a spec writes for a triple. -/
def FilterSpec.elementFor (spec : FilterSpec) (t : Triple) : Element :=
  if spec.isOptional then .optional ⟨none, [.triple t]⟩ else .triple t

/-- What a spec writes for its variable: nothing if it has none, else the triple that binds it. -/
inductive FilterSpec.Binds (spec : FilterSpec) (subject predicate : String) : List Element → Prop
  | unbound : spec.var = none → Binds spec subject predicate []
  | bound {x : String} {t : Triple} : spec.var = some (.str x) → t.IsFor subject predicate x →
    Binds spec subject predicate [spec.elementFor t]

/-- A triple that gives the fragment of a place as the value of a geospatial function. -/
def FilterSpec.Places (spec : FilterSpec) (subject fragment : String) (t : Triple) : Prop :=
  ∃ function, termOf spec.uri = .ok function ∧ t.IsFor subject function fragment

-- ---------------------------------------------------------------------------
-- Progress that only adds
-- ---------------------------------------------------------------------------

/-- One progress comes from another by adding elements and alternatives. -/
structure Progress.Adds (p p' : Progress) (added : List Element) (alternatives : List Branch) :
    Prop where
  origin : p'.draft.group.origin = p.draft.group.origin
  elements : p'.draft.group.elements = p.draft.group.elements ++ added
  branches : p'.branches = p.branches ++ alternatives

/-- A condition is written if it can stand in a `FILTER`. -/
theorem write_filter_eq_ok_iff {limit : Nat} {e : String} {p p' : Progress} :
    p.write (·.filter limit (.str e)) = .ok p' ↔
      Kind.acceptsAnyWithin limit Kind.forFilter e = .ok true ∧
        p' = { p with draft := p.draft.add (.filter e) } := by
  rw [Progress.write, map_eq_ok_iff]
  constructor
  · rintro ⟨d, hFilter, rfl⟩
    obtain ⟨_, hSame, hFits, rfl⟩ := Draft.filter_eq_ok_iff.mp hFilter
    cases hSame
    exact ⟨hFits, rfl⟩
  · rintro ⟨hFits, rfl⟩
    exact ⟨_, Draft.filter_eq_ok_iff.mpr ⟨e, rfl, hFits, rfl⟩, rfl⟩

namespace Progress.Adds

variable {p p' p'' : Progress} {added added' : List Element}
  {alternatives alternatives' : List Branch}

/-- Nothing may be added. -/
theorem refl (p : Progress) : p.Adds p [] [] :=
  ⟨rfl, (List.append_nil _).symm, (List.append_nil _).symm⟩

/-- What is added in two steps is added one after the other. -/
theorem trans (h : p.Adds p' added alternatives) (h' : p'.Adds p'' added' alternatives') :
    p.Adds p'' (added ++ added') (alternatives ++ alternatives') :=
  ⟨h'.origin.trans h.origin, by rw [h'.elements, h.elements, List.append_assoc],
    by rw [h'.branches, h.branches, List.append_assoc]⟩

/-- An element that is added is the last. -/
theorem add (p : Progress) (e : Element) : p.Adds { p with draft := p.draft.add e } [e] [] :=
  ⟨rfl, rfl, (List.append_nil _).symm⟩

/-- A condition that was checked is added. -/
theorem filter {limit : Nat} {e : String} (h : p.write (·.filter limit (.str e)) = .ok p') :
    p.Adds p' [.filter e] [] := by
  obtain ⟨-, rfl⟩ := write_filter_eq_ok_iff.mp h
  exact add p _

end Progress.Adds

/-- The draft with some conditions written at its end. -/
def Draft.conditions (d : Draft) (es : List String) : Draft :=
  es.foldl (fun d e => d.add (.filter e)) d

/-- Conditions that are written in two runs are written in one. -/
theorem Draft.conditions_conditions (d : Draft) (es es' : List String) :
    (d.conditions es).conditions es' = d.conditions (es ++ es') := List.foldl_append.symm

/-- Conditions that are written are added, and no alternative is. -/
theorem Progress.adds_conditions (p : Progress) (es : List String) :
    p.Adds { p with draft := p.draft.conditions es } (es.map .filter) [] := by
  induction es generalizing p with
  | nil => exact .refl p
  | cons e rest ih =>
    exact (Adds.add p (.filter e)).trans (ih { p with draft := p.draft.add (.filter e) })

/-- What has been written for a spec, with further conditions and bounds of its clauses. -/
def SpecProgress.advance (p : SpecProgress) (conditions : List String) (bounds : List Bound) :
    SpecProgress :=
  { p with draft := p.draft.conditions conditions, bounds := p.bounds ++ bounds }

/-- Without conditions and bounds there is no progress. -/
theorem SpecProgress.advance_nil (p : SpecProgress) : p.advance [] [] = p := by
  simp [advance, Draft.conditions]

/-- Progress in two runs is progress in one. -/
theorem SpecProgress.advance_advance (p : SpecProgress) (es es' : List String)
    (bs bs' : List Bound) :
    (p.advance es bs).advance es' bs' = p.advance (es ++ es') (bs ++ bs') := by
  simp [advance, Draft.conditions]

/-- A triple that is written with a subject is for that subject. -/
theorem Triple.isFor_of_also {d d' : Draft} {subject predicate object : String}
    (h : d.also (.str subject) (.str predicate) (.str object) = .ok d') :
    ∃ t : Triple, t.IsFor subject predicate object ∧ d' = d.add (.triple t) := by
  obtain ⟨given, t, hGiven, hCheck, rfl⟩ := Draft.also_eq_ok h
  obtain ⟨hSubject, hPredicate, hObject, hFits⟩ := checkTriple_eq_ok_iff.mp hCheck
  cases hPredicate
  cases hObject
  refine ⟨t, ⟨hFits, fun hSome => ?_, rfl, rfl⟩, rfl⟩
  rw [hGiven (by simpa [Json.isSet] using hSome)] at hSubject
  exact (Json.str.inj hSubject).symm

/-- A triple that fits is written. -/
theorem Draft.also_of_fits {subject predicate object : String}
    (h : Triple.Fits ⟨subject, predicate, object⟩) (d : Draft) :
    d.also (.str subject) (.str predicate) (.str object) =
      .ok (d.add (.triple ⟨subject, predicate, object⟩)) := by
  have hSet : (Json.str subject).isSet = true :=
    bne_iff_ne.mpr (Kind.ne_empty_of_subject h.subject)
  rw [Draft.also, if_pos hSet]
  dsimp only
  rw [checkTriple_eq_ok_iff.mpr ⟨rfl, rfl, rfl, h⟩]
  rfl

/-- A triple that passes is for the terms that were checked. -/
theorem Triple.isFor_of_check {t : Triple} {subject predicate object : String}
    (h : checkTriple (.str subject) (.str predicate) (.str object) = .ok t) :
    t.IsFor subject predicate object := by
  obtain ⟨hSubject, hPredicate, hObject, hFits⟩ := checkTriple_eq_ok_iff.mp h
  cases hSubject
  cases hPredicate
  cases hObject
  exact ⟨hFits, fun _ => rfl, rfl, rfl⟩

/-- A spec writes the triple for its variable. -/
theorem writeTriple_adds {spec : FilterSpec} {subject predicate : String} {p p' : Progress}
    (h : p.write (spec.writeTriple subject predicate) = .ok p') :
    ∃ own, spec.Binds subject predicate own ∧ p.Adds p' own [] := by
  obtain ⟨d, hWrite, rfl⟩ := map_eq_ok_iff.mp h
  unfold FilterSpec.writeTriple at hWrite
  -- no variable writes nothing, an optional one its group, any other one the triple itself
  split at hWrite
  · rename_i hNone
    cases hWrite
    exact ⟨[], .unbound hNone, .refl p⟩
  · rename_i var hVar
    split at hWrite
    · rename_i hOptional
      obtain ⟨t, hCheck, rfl⟩ := Draft.optional_eq_ok_iff.mp hWrite
      obtain ⟨-, -, rfl, -⟩ := checkTriple_eq_ok_iff.mp hCheck
      refine ⟨_, .bound hVar (Triple.isFor_of_check hCheck), ?_⟩
      rw [FilterSpec.elementFor, if_pos hOptional]
      exact .add p _
    · rename_i hRequired
      obtain ⟨_, t, -, hCheck, -⟩ := Draft.also_eq_ok hWrite
      obtain ⟨-, -, rfl, -⟩ := checkTriple_eq_ok_iff.mp hCheck
      obtain ⟨t, hFor, rfl⟩ := Triple.isFor_of_also hWrite
      refine ⟨_, .bound hVar hFor, ?_⟩
      rw [FilterSpec.elementFor, if_neg hRequired]
      exact .add p _

-- ---------------------------------------------------------------------------
-- Clauses on the IRI of a geospatial function
-- ---------------------------------------------------------------------------

/-- Some clauses of a spec were gone through: each fragment of a place became a triple, or an
alternative if its clause is one. -/
def Progress.Placed (s : Settings) (spec : FilterSpec) (subject : String) (clauses : List Clause)
    (p p' : Progress) : Prop :=
  ∃ triples alternatives : List Triple,
    p.Adds p' (triples.map .triple) (alternatives.map Triple.branch) ∧
    List.Forall₂ (spec.Places subject)
      ((clauses.filter (!·.isUnion)).filterMap (s.place? spec)) triples ∧
    List.Forall₂ (spec.Places subject)
      ((clauses.filter (·.isUnion)).filterMap (s.place? spec)) alternatives

/-- What a geospatial clause gives is a triple: a branch for the union if it is an alternative, and
an element of the group otherwise. -/
theorem place_eq_ok {spec : FilterSpec} {c : Clause} {subject function fragment : String}
    {p p' : Progress} (hFunction : termOf spec.uri = .ok function)
    (h : p.place c subject function fragment = .ok p') :
    ∃ t, spec.Places subject fragment t ∧
      (c.isUnion = true ∧ p.Adds p' [] [t.branch] ∨
        c.isUnion = false ∧ p.Adds p' [.triple t] []) := by
  unfold Progress.place at h
  split at h
  · rename_i hUnion
    obtain ⟨d, hTriple, rfl⟩ := map_eq_ok_iff.mp h
    obtain ⟨t, hCheck, rfl⟩ := Draft.triple_eq_ok_iff.mp hTriple
    exact ⟨t, ⟨function, hFunction, Triple.isFor_of_check hCheck⟩,
      .inl ⟨hUnion, rfl, (List.append_nil _).symm, rfl⟩⟩
  · rename_i hUnion
    obtain ⟨d, hAlso, rfl⟩ := map_eq_ok_iff.mp h
    obtain ⟨t, hFor, rfl⟩ := Triple.isFor_of_also hAlso
    exact ⟨t, ⟨function, hFunction, hFor⟩, .inr ⟨by simpa using hUnion, .add p _⟩⟩

section

variable {s : Settings} {spec : FilterSpec} {subject : String} {done : List Clause} {c : Clause}
  {p p' p'' : Progress}

/-- No clause has placed anything yet. -/
theorem Progress.Placed.refl (p : Progress) : p.Placed s spec subject [] p :=
  ⟨[], [], .refl p, .nil, .nil⟩

/-- A clause that gives nothing for a place. -/
theorem Progress.Placed.skip (h : p.Placed s spec subject done p')
    (hNone : s.place? spec c = none) : p.Placed s spec subject (done ++ [c]) p' := by
  obtain ⟨triples, alternatives, hAdds, hTriples, hAlternatives⟩ := h
  refine ⟨triples, alternatives, hAdds, ?_, ?_⟩
  · cases hUnion : c.isUnion <;> simpa [List.filter_append, hUnion, hNone] using hTriples
  · cases hUnion : c.isUnion <;> simpa [List.filter_append, hUnion, hNone] using hAlternatives

/-- A clause that was chosen and goes to its place. -/
theorem Progress.Placed.next (h : p.Placed s spec subject done p') (hSelected : c.isSelected = true)
    (hPlace : (s.placeClause spec subject p' c).outcome = .ok p'') :
    p.Placed s spec subject (done ++ [c]) p'' := by
  obtain ⟨found, hFound, ⟨rfl, rfl⟩ | ⟨fragment, function, rfl, hFunction, hStep⟩⟩ :=
    placeClause_eq_ok hPlace
  · exact h.skip (by simp [Settings.place?, hSelected, hFound, Except.toOption])
  have hGives : s.place? spec c = some fragment := by
    simp [Settings.place?, hSelected, hFound, Except.toOption]
  obtain ⟨triples, alternatives, hAdds, hTriples, hAlternatives⟩ := h
  obtain ⟨t, hPlaces, ⟨hUnion, hNext⟩ | ⟨hUnion, hNext⟩⟩ := place_eq_ok hFunction hStep
  · -- an alternative joins the branches, any other triple the elements
    refine ⟨triples, alternatives ++ [t], ?_, ?_, ?_⟩
    · simpa using hAdds.trans hNext
    · simpa [List.filter_append, hUnion] using hTriples
    · simpa [List.filter_append, hUnion, hGives] using
        List.rel_append hAlternatives (.cons hPlaces .nil)
  · refine ⟨triples ++ [t], alternatives, ?_, ?_, ?_⟩
    · simpa using hAdds.trans hNext
    · simpa [List.filter_append, hUnion, hGives] using
        List.rel_append hTriples (.cons hPlaces .nil)
    · simpa [List.filter_append, hUnion] using hAlternatives

end

-- ---------------------------------------------------------------------------
-- Clauses on any other IRI
-- ---------------------------------------------------------------------------

section

variable {s : Settings} {spec : FilterSpec} {o : Observable} {key entity : String} {c : Clause}

/-- A clause that asks for a function gives no fragment. -/
theorem translate_function {kind : FilterKind} {var datatype : Option Json}
    (hKind : FilterKind.of c.name = .ok kind) (hFunction : kind.category?.isSome = true) :
    (s.translate c var datatype).outcome = .ok none := by
  obtain ⟨name, hName, rfl⟩ := map_eq_ok_iff.mp hKind
  rw [Settings.translate, Traced.liftM_raise_eq_pure hName, pure_bind]
  dsimp only
  generalize FilterKind.ofPlainName (FilterKind.plainName name) = kind at hFunction
  cases kind with
  | aggregateFunction | temporalFunction => rfl
  | _ => cases hFunction

/-- A clause that was not chosen gives nothing. -/
theorem fragment?_of_not_selected (h : c.isSelected = false) : s.fragment? spec c = none := by
  simp [Settings.fragment?, h]

/-- A clause that was chosen gives what it is translated to. -/
theorem fragment?_of_selected {found : Option String} (h : c.isSelected = true)
    (hFound : (s.translate c spec.var spec.datatype).outcome = .ok found) :
    s.fragment? spec c = found := by
  simp [Settings.fragment?, h, hFound, Except.toOption]

/-- A clause that gives no fragment gives neither a condition nor a bound. -/
theorem condition?_bound?_of_none (h : s.fragment? spec c = none) :
    s.condition? spec c = none ∧ s.bound? spec c = none := by
  simp [Settings.condition?, Settings.bound?, h]

/-- A clause can be gone through: it was not chosen, or it is translated, and if that gives a
condition then one that can stand in a `FILTER`. -/
def Settings.Admits (s : Settings) (spec : FilterSpec) (c : Clause) : Prop :=
  c.isSelected = true → (∃ found, (s.translate c spec.var spec.datatype).outcome = .ok found) ∧
    ∀ e ∈ s.condition? spec c, Kind.acceptsAnyWithin s.nesting Kind.forFilter e = .ok true

/-- A clause that is translated has a kind. -/
theorem kind_of_translate {var datatype : Option Json} {found : Option String}
    (h : (s.translate c var datatype).outcome = .ok found) :
    ∃ kind, FilterKind.of c.name = .ok kind := by
  simp only [Settings.translate, Traced.outcome_bind, Traced.outcome_lift, bind_eq_ok_iff,
    raise_eq_ok_iff] at h
  obtain ⟨name, hName, -⟩ := h
  exact ⟨_, map_eq_ok_iff.mpr ⟨name, hName, rfl⟩⟩

/-- What constrains is translated: to nothing, to a bound that is kept or to a condition that
fits. -/
theorem constrain_eq_ok_iff {kind : FilterKind} {p p' : SpecProgress}
    (hKind : FilterKind.of c.name = .ok kind) (hSelected : c.isSelected = true) :
    (s.constrain spec kind p c).outcome = .ok p' ↔
      s.Admits spec c ∧ p' = p.advance (s.condition? spec c).toList (s.bound? spec c).toList := by
  have hName : (FilterKind.of c.name).toOption = some kind := by rw [hKind]; rfl
  rw [Settings.constrain, Traced.outcome_bind, Settings.Admits]
  -- what cannot be translated is admitted by no one
  cases hFound : (s.translate c spec.var spec.datatype).outcome with
  | error f =>
    constructor
    · intro h
      cases h
    · rintro ⟨hAdmits, -⟩
      obtain ⟨_, hNone⟩ := (hAdmits hSelected).1
      cases hNone
  | ok found =>
    have hGives := fragment?_of_selected hSelected hFound
    simp only [bind_eq_ok_iff, Except.ok.injEq, exists_eq_left']
    cases found with
    | none =>
      obtain ⟨hCondition, hBound⟩ := condition?_bound?_of_none hGives
      simp [hCondition, hBound, p.advance_nil, eq_comm (a := p')]
    | some e =>
      -- a range keeps its bound for the merge, other conditions are written at once
      by_cases hRange : kind = .range
      · simp [Settings.condition?, Settings.bound?, hName, hGives, hRange, SpecProgress.advance,
          Draft.conditions, eq_comm (a := p')]
      · have hOther : ¬ some kind = some FilterKind.range := fun hSame =>
          hRange (Option.some.inj hSame)
        simp only [Settings.condition?, Settings.bound?, hName, hGives, if_neg hOther, beq_iff_eq,
          if_neg hRange]
        rw [Traced.outcome_bind, bind_eq_ok_iff]
        simp [write_filter_eq_ok_iff, hSelected, SpecProgress.advance, Draft.conditions,
          eq_comm (a := p')]

/-- What a clause gives is written or kept, if the clause can be gone through. -/
theorem applyClause_plain_iff {p p' : SpecProgress}
    (hPlain : s.isGeoFunction spec.uri = .ok false) :
    (s.applyClause spec o key p c).outcome = .ok p' ↔
      s.Admits spec c ∧ p' = p.advance (s.condition? spec c).toList (s.bound? spec c).toList := by
  unfold Settings.applyClause
  split
  · rename_i hSelected
    have hOther : c.isSelected = false := by simpa using hSelected
    have hNone : s.fragment? spec c = none := fragment?_of_not_selected hOther
    obtain ⟨hCondition, hBound⟩ := condition?_bound?_of_none hNone
    simp [Settings.Admits, hOther, hCondition, hBound, p.advance_nil, eq_comm (a := p')]
  rename_i hSelected
  replace hSelected : c.isSelected = true := by simpa using hSelected
  simp only [Traced.outcome_bind, Traced.outcome_lift, bind_eq_ok_iff, raise_eq_ok_iff, hPlain,
    Except.ok.injEq, exists_eq_left', Bool.false_eq_true, if_false]
  cases hKind : FilterKind.of c.name with
  | error f =>
    constructor
    · rintro ⟨kind, hNone, -⟩
      cases hNone
    · -- a clause without a kind is not translated
      rintro ⟨hAdmits, -⟩
      obtain ⟨found, hFound⟩ := (hAdmits hSelected).1
      obtain ⟨kind, hNone⟩ := kind_of_translate hFound
      rw [hKind] at hNone
      cases hNone
  | ok kind =>
    simp only [Except.ok.injEq, exists_eq_left']
    cases hCategory : kind.category? with
    | none => exact constrain_eq_ok_iff hKind hSelected
    | some category =>
      have hFound : (s.translate c spec.var spec.datatype).outcome = .ok none :=
        translate_function hKind (by rw [hCategory]; rfl)
      obtain ⟨hCondition, hBound⟩ :=
        condition?_bound?_of_none (fragment?_of_selected hSelected hFound)
      dsimp only
      rw [Traced.outcome_bind, outcome_requestFunction]
      simp [Settings.Admits, hFound, hCondition, hBound, p.advance_nil, bind_eq_ok_iff,
        eq_comm (a := p')]

/-- What clauses give is written and kept in their order, if all of them can be gone through. -/
theorem applyClauses_plain_iff {clauses : List Clause} {p p' : SpecProgress}
    (hPlain : s.isGeoFunction spec.uri = .ok false) :
    (clauses.foldlM (s.applyClause spec o key) p).outcome = .ok p' ↔
      (∀ c ∈ clauses, s.Admits spec c) ∧
        p' = p.advance (clauses.filterMap (s.condition? spec))
          (clauses.filterMap (s.bound? spec)) := by
  induction clauses generalizing p with
  | nil => simp [p.advance_nil, eq_comm (a := p')]
  | cons c rest ih =>
    -- a clause gives one condition or bound at most, which goes in front of the others
    have hCons {β : Type} (f : Clause → Option β) :
        (c :: rest).filterMap f = (f c).toList ++ rest.filterMap f := by
      cases hc : f c <;> simp [hc]
    rw [List.foldlM_cons, Traced.outcome_bind_eq_ok_iff, hCons, hCons, List.forall_mem_cons]
    simp only [applyClause_plain_iff hPlain, ih]
    constructor
    · rintro ⟨q, ⟨hFirst, rfl⟩, hRest, rfl⟩
      exact ⟨⟨hFirst, hRest⟩, p.advance_advance ..⟩
    · rintro ⟨⟨hFirst, hRest⟩, rfl⟩
      exact ⟨_, ⟨hFirst, rfl⟩, hRest, (p.advance_advance ..).symm⟩

/-- The merged expression of the bounds is written, if there is one and it can stand in a
`FILTER`. -/
theorem writeBounds_eq_ok_iff {limit : Nat} {p : SpecProgress} {p' : Progress} :
    (p.writeBounds limit).outcome = .ok p' ↔
      ∃ merged, mergedExpression p.bounds = .ok merged ∧
        (∀ e ∈ merged, Kind.acceptsAnyWithin limit Kind.forFilter e = .ok true) ∧
        p' = { p.toProgress with draft := p.draft.conditions merged.toList } := by
  unfold SpecProgress.writeBounds
  split
  · -- without bounds nothing is merged, and nothing written
    rename_i hEmpty
    have hNone : mergedExpression p.bounds = .ok none := by
      rw [List.isEmpty_iff.mp hEmpty]
      rfl
    simp [hNone, Draft.conditions, eq_comm (a := p')]
  · rw [Traced.outcome_bind_eq_ok_iff]
    simp only [mergeBounds, raise_eq_ok_iff]
    refine exists_congr fun merged => and_congr_right fun _ => ?_
    cases merged with
    | none => simp [Draft.conditions, eq_comm (a := p')]
    | some e => simp [write_filter_eq_ok_iff, Draft.conditions]

/-- The steps of a spec: its triple, its clauses and its bounds. -/
theorem applySpec_eq_ok {p p' : Progress} (h : (s.applySpec o key p spec).outcome = .ok p') :
    ∃ predicate own start done, termOf spec.uri = .ok predicate ∧
      spec.Binds (bracketUrl o.subject) predicate own ∧ p.Adds start own [] ∧
      (spec.clauses.foldlM (s.applyClause spec o key) ⟨start, []⟩).outcome = .ok done ∧
      (done.writeBounds s.nesting).outcome = .ok p' := by
  simp only [Settings.applySpec, Traced.outcome_bind, Traced.outcome_lift, bind_eq_ok_iff,
    raise_eq_ok_iff] at h
  obtain ⟨predicate, hPredicate, start, hStart, -, -, done, hDone, h⟩ := h
  obtain ⟨own, hOwn, hAdds⟩ := writeTriple_adds hStart
  exact ⟨predicate, own, start, done, hPredicate, hOwn, hAdds, hDone, h⟩

/-- A spec that has a term is on a geospatial function or it is not. -/
theorem isGeoFunction_of_termOf {predicate : String} (h : termOf spec.uri = .ok predicate) :
    s.isGeoFunction spec.uri = .ok true ∨ s.isGeoFunction spec.uri = .ok false := by
  unfold termOf at h
  split at h
  · rename_i uri hUri
    rw [hUri]
    change Except.ok _ = _ ∨ Except.ok _ = _
    cases s.geoFunctions.any (·.equal (.str uri))
    · exact .inr rfl
    · exact .inl rfl
  · cases h

/-- **The spec of an observable, on an IRI that is no geospatial function.** It writes its triple,
then the conditions of its clauses, then the merged expression of their bounds. Nothing else decides
whether it succeeds but that each of these can be written. -/
theorem applySpec_plain_iff {p p' : Progress} (hPlain : s.isGeoFunction spec.uri = .ok false) :
    (s.applySpec o key p spec).outcome = .ok p' ↔
      ∃ predicate start merged, termOf spec.uri = .ok predicate ∧
        p.write (spec.writeTriple (bracketUrl o.subject) predicate) = .ok start ∧
        (∀ c ∈ spec.clauses, s.Admits spec c) ∧ mergedExpression (s.bounds spec) = .ok merged ∧
        (∀ e ∈ merged, Kind.acceptsAnyWithin s.nesting Kind.forFilter e = .ok true) ∧
        p' = { start with
          draft := start.draft.conditions (s.conditions spec ++ merged.toList) } := by
  simp only [Settings.applySpec, Traced.outcome_bind, Traced.outcome_lift, bind_eq_ok_iff,
    raise_eq_ok_iff, outcome_noteSelected, applyClauses_plain_iff hPlain, writeBounds_eq_ok_iff]
  constructor
  · rintro ⟨predicate, hPredicate, start, hStart, -, -, _, ⟨hAdmits, rfl⟩, merged, hMerged, hFits,
      rfl⟩
    exact ⟨predicate, start, merged, hPredicate, hStart, hAdmits, hMerged, hFits,
      by rw [← Draft.conditions_conditions]; rfl⟩
  · rintro ⟨predicate, start, merged, hPredicate, hStart, hAdmits, hMerged, hFits, rfl⟩
    exact ⟨predicate, hPredicate, start, hStart, (), trivial, _, ⟨hAdmits, rfl⟩, merged, hMerged,
      hFits, by rw [← Draft.conditions_conditions]; rfl⟩

/-- What is added by a spec on an IRI that is no geospatial function. -/
theorem applySpec_plain {p p' : Progress} (hPlain : s.isGeoFunction spec.uri = .ok false)
    (h : (s.applySpec o key p spec).outcome = .ok p') :
    ∃ predicate own merged, termOf spec.uri = .ok predicate ∧
      spec.Binds (bracketUrl o.subject) predicate own ∧
      mergedExpression (s.bounds spec) = .ok merged ∧
      p.Adds p' (own ++ (s.conditions spec ++ merged.toList).map .filter) [] := by
  obtain ⟨predicate, start, merged, hPredicate, hStart, -, hMerged, -, rfl⟩ :=
    (applySpec_plain_iff hPlain).mp h
  obtain ⟨own, hOwn, hAdds⟩ := writeTriple_adds hStart
  exact ⟨predicate, own, merged, hPredicate, hOwn, hMerged,
    hAdds.trans (start.adds_conditions _)⟩

/-- Clauses on the IRI of a geospatial function are placed, and none of them leaves a bound. -/
theorem applyClauses_geospatial {clauses : List Clause} {start : Progress} {done : SpecProgress}
    (hGeo : s.isGeoFunction spec.uri = .ok true)
    (h : (clauses.foldlM (s.applyClause spec o key) ⟨start, []⟩).outcome = .ok done) :
    start.Placed s spec (bracketUrl o.subject) clauses done.toProgress ∧ done.bounds = [] := by
  refine Traced.foldlM_along (I := fun clauses (q : SpecProgress) =>
    start.Placed s spec (bracketUrl o.subject) clauses q.toProgress ∧ q.bounds = []) ?_
    ⟨.refl start, rfl⟩ h
  rintro clauses c - q q' ⟨hPlaced, hNone⟩ hStep
  obtain ⟨hSelected, rfl⟩ | ⟨hSelected, ⟨-, placed, hPlace, rfl⟩ | ⟨hPlain, -⟩⟩ :=
    applyClause_eq_ok hStep
  · exact ⟨hPlaced.skip (by simp [Settings.place?, hSelected]), hNone⟩
  · exact ⟨hPlaced.next hSelected hPlace, hNone⟩
  · rw [hGeo] at hPlain
    cases hPlain

/-- **The spec of an observable, on the IRI of a geospatial function.** It writes its triple, and
then what its clauses give for a place. -/
theorem applySpec_geospatial {p p' : Progress} (hGeo : s.isGeoFunction spec.uri = .ok true)
    (h : (s.applySpec o key p spec).outcome = .ok p') :
    ∃ predicate own start, termOf spec.uri = .ok predicate ∧
      spec.Binds (bracketUrl o.subject) predicate own ∧ p.Adds start own [] ∧
      start.Placed s spec (bracketUrl o.subject) spec.clauses p' := by
  obtain ⟨predicate, own, start, done, hPredicate, hOwn, hStart, hDone, hBounds⟩ :=
    applySpec_eq_ok h
  refine ⟨predicate, own, start, hPredicate, hOwn, hStart, ?_⟩
  -- no clause leaves a bound, so nothing is merged at the end
  obtain ⟨hPlaced, hNone⟩ := applyClauses_geospatial hGeo hDone
  unfold SpecProgress.writeBounds at hBounds
  rw [hNone] at hBounds
  cases hBounds
  exact hPlaced

-- ---------------------------------------------------------------------------
-- A search by place
-- ---------------------------------------------------------------------------

/-- What a clause of a search by place may come to. -/
theorem applyLocationClause_eq_ok {isGeo : Bool} {p p' : Progress}
    (h : (s.applyLocationClause spec isGeo entity p c).outcome = .ok p') :
    c.isSelected = false ∧ p' = p ∨
    c.isSelected = true ∧
      (isGeo = true ∧ (s.placeClause spec entity p c).outcome = .ok p' ∨
      isGeo = false ∧ ∃ found, (s.translate c spec.var spec.datatype).outcome = .ok found ∧
        p.Adds p' (found.map .filter).toList []) := by
  unfold Settings.applyLocationClause at h
  split at h
  · rename_i hSelected
    cases h
    exact .inl ⟨by simpa using hSelected, rfl⟩
  rename_i hSelected
  refine .inr ⟨by simpa using hSelected, ?_⟩
  -- a geospatial attribute is placed; what else is found becomes a filter
  split at h
  · rename_i hGeo
    exact .inl ⟨hGeo, h⟩
  rename_i hGeo
  refine .inr ⟨by simpa using hGeo, ?_⟩
  simp only [Traced.outcome_bind, bind_eq_ok_iff] at h
  obtain ⟨found, hFound, h⟩ := h
  refine ⟨found, hFound, ?_⟩
  cases found with
  | none =>
    cases h
    exact .refl _
  | some e => exact .filter h

/-- In a search by place a spec is gone through clause by clause. -/
theorem applyLocationSpec_eq_ok_iff {p p' : Progress} :
    (s.applyLocationSpec entity p spec).outcome = .ok p' ↔
      ∃ isGeo, s.isGeoFunction spec.uri = .ok isGeo ∧
        (spec.clauses.foldlM (s.applyLocationClause spec isGeo entity) p).outcome = .ok p' := by
  simp only [Settings.applyLocationSpec, Traced.outcome_bind, Traced.outcome_lift, bind_eq_ok_iff,
    raise_eq_ok_iff]

/-- **The spec of a search by place, on an IRI that is no geospatial function.** Each fragment of
its clauses is written as a condition, the bounds among them too. -/
theorem applyLocationSpec_plain {p p' : Progress} (hPlain : s.isGeoFunction spec.uri = .ok false)
    (h : (s.applyLocationSpec entity p spec).outcome = .ok p') :
    p.Adds p' ((s.fragments spec).map .filter) [] := by
  obtain ⟨isGeo, hGeo, h⟩ := applyLocationSpec_eq_ok_iff.mp h
  rw [hPlain] at hGeo
  cases hGeo
  refine Traced.foldlM_along (I := fun done (q : Progress) =>
    p.Adds q ((done.filterMap (s.fragment? spec)).map .filter) []) ?_ (.refl p) h
  intro done c _ q q' hAdds hStep
  -- what was found is added behind what the clauses before have added
  obtain ⟨hSelected, rfl⟩ | ⟨hSelected, ⟨hGeo, -⟩ | ⟨-, found, hFound, hNext⟩⟩ :=
    applyLocationClause_eq_ok hStep
  · simpa [List.filterMap_append, fragment?_of_not_selected hSelected] using hAdds
  · cases hGeo
  · have hGives := fragment?_of_selected hSelected hFound
    cases found <;> simpa [List.filterMap_append, hGives] using hAdds.trans hNext

/-- **The spec of a search by place, on the IRI of a geospatial function.** It writes what its
clauses give for a place. -/
theorem applyLocationSpec_geospatial {p p' : Progress} (hGeo : s.isGeoFunction spec.uri = .ok true)
    (h : (s.applyLocationSpec entity p spec).outcome = .ok p') :
    p.Placed s spec entity spec.clauses p' := by
  obtain ⟨isGeo, hIsGeo, h⟩ := applyLocationSpec_eq_ok_iff.mp h
  rw [hGeo] at hIsGeo
  cases hIsGeo
  refine Traced.foldlM_along (I := fun clauses q => p.Placed s spec entity clauses q) ?_
    (.refl p) h
  intro clauses c _ q q' hPlaced hStep
  obtain ⟨hSelected, rfl⟩ | ⟨hSelected, ⟨-, hPlace⟩ | ⟨hPlain, -⟩⟩ :=
    applyLocationClause_eq_ok hStep
  · exact hPlaced.skip (by simp [Settings.place?, hSelected])
  · exact hPlaced.next hSelected hPlace
  · cases hPlain

end

end SparqlSelect
