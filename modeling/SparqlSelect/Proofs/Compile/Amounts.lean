import SparqlSelect.Proofs.Compile.Answers
import SparqlSelect.Proofs.Filter.Radii
import SparqlSelect.Proofs.Request.Numbers
import SparqlSelect.Proofs.Traced.Follows

/-!
# Limits and radii

A limit is written into a query as it is, and a radius only decides what the circle around a middle
looks like. Neither is looked at by any other step of the compiler. So if a request is compiled, the
same request with other limits and radii is compiled too, or it is reported what is wrong with it: a
circle may be one that no pattern takes, but no step meets a value that it cannot use.

The first run is known to succeed, and the second one is compared with it clause by clause. The
bounds of ranges are the same in both, so they are merged the same way.

* `translate_follows`, `applyClause_follows`, `applySpec_follows` — clauses and specs.
* `subgraph_follows`, `locationQuery_follows`, `buildRequest_follows` — patterns and queries.
* `compile_follows` — texts.
-/

namespace SparqlSelect

-- ---------------------------------------------------------------------------
-- Clauses
-- ---------------------------------------------------------------------------

section

variable {s : Settings} {spec spec' : FilterSpec} {c c' : Clause}

/-- Wherever the first condition is accepted, so is the second. -/
def AcceptedToo (e e' : String) : Prop :=
  ∀ limit, Kind.acceptsAnyWithin limit Kind.forFilter e = .ok true →
    Kind.acceptsAnyWithin limit Kind.forFilter e' = .ok true

/-- A middle that makes a circle with one radius makes one with any other, and it is as good a
condition. -/
theorem circleOf_adjusted (h : c.Adjusted c') {found : Option String}
    (hFound : circleOf s c = .ok found) :
    ∃ found', circleOf s c' = .ok found' ∧ (found = none → found' = none) ∧
      ∀ e ∈ found, ∀ e' ∈ found', AcceptedToo e e' := by
  cases hRadius' : c'.radius with
  | none => exact ⟨none, by rw [circleOf, hRadius'], fun _ => rfl, nofun⟩
  | some x' =>
    obtain ⟨x, hRadius⟩ : ∃ x, c.radius = some x := by
      refine Option.ne_none_iff_exists'.mp fun hNone => ?_
      rw [h.radius hNone] at hRadius'
      cases hRadius'
    have hCenter : c'.center = c.center := by rw [h.same]
    rw [circleOf, hRadius] at hFound
    rw [circleOf, hRadius', hCenter]
    dsimp only at hFound ⊢
    -- which of the names are there does not depend on the radius
    obtain ⟨hasLat, hLat, hFound⟩ := bind_eq_ok_iff.mp hFound
    rw [hLat]
    cases hasLat with
    | false => exact ⟨none, rfl, fun _ => rfl, nofun⟩
    | true =>
      obtain ⟨hasLng, hLng, hFound⟩ := bind_eq_ok_iff.mp hFound
      simp only [bind, Except.bind, hLng]
      cases hasLng with
      | false => exact ⟨none, rfl, fun _ => rfl, nofun⟩
      | true =>
        obtain ⟨latitude, hLatitude, hFound⟩ := bind_eq_ok_iff.mp hFound
        obtain ⟨longitude, hLongitude, hFound⟩ := bind_eq_ok_iff.mp hFound
        cases hFound
        simp only [hLatitude, hLongitude]
        refine ⟨_, rfl, nofun, ?_⟩
        rintro _ ⟨⟩ _ ⟨⟩ limit hAccepted
        exact circle_exchanged _ _ _ x' hAccepted

/-- What an adjusted clause is translated to, as compared with what the clause is. -/
structure Clause.Refound (c : Clause) (found found' : Option String) : Prop where
  nothing : found = none → found' = none
  same : FilterKind.of c.name ≠ .ok .nearby → found' = found
  accepted : ∀ e ∈ found, ∀ e' ∈ found', AcceptedToo e e'

/-- What is the same is accepted, too. -/
theorem Clause.Refound.refl (c : Clause) (found : Option String) : c.Refound found found := by
  refine ⟨id, fun _ => rfl, fun e he e' he' => ?_⟩
  obtain rfl := Option.mem_unique he he'
  exact fun _ => id

/-- An adjusted clause is translated whenever the clause is. Only a circle is another one then. -/
theorem translate_follows (h : c.Adjusted c') (var datatype : Option Json) :
    Traced.Follows c.Refound (s.translate c var datatype) (s.translate c' var datatype) := by
  obtain ⟨radius, hRadius⟩ : ∃ radius, c' = { c with radius } := ⟨_, h.same⟩
  unfold Settings.translate
  rw [show c'.name = c.name by rw [hRadius]]
  refine .same _ fun name hName => ?_
  have hKind : FilterKind.of c.name = .ok (FilterKind.ofPlainName (FilterKind.plainName name)) :=
    map_eq_ok_iff.mpr ⟨name, raise_eq_ok_iff.mp hName, rfl⟩
  dsimp only
  generalize FilterKind.ofPlainName (FilterKind.plainName name) = kind at hKind
  cases kind with
  -- a circle is the one condition that is written with the radius
  | nearby =>
    intro found hFound
    simp only [Traced.outcome_bind, Traced.outcome_lift, outcome_orMessage, bind_eq_ok_iff,
      raise_eq_ok_iff] at hFound
    obtain ⟨_, hCircle, ⟨⟩⟩ := hFound
    obtain ⟨found', hCircle', hNone, hAccepted⟩ := circleOf_adjusted h hCircle
    refine .of_exists ⟨found', ?_, hNone, fun hNot => absurd hKind hNot, hAccepted⟩
    simp only [Traced.outcome_bind, Traced.outcome_lift, outcome_orMessage, bind_eq_ok_iff,
      raise_eq_ok_iff]
    exact ⟨found', hCircle', rfl⟩
  | _ =>
    subst hRadius
    exact .refl (Clause.Refound.refl c) _

/-- A geospatial clause with another radius gives a triple or nothing, or its circle is reported. -/
theorem placeClause_follows (hSpec : spec.Adjusted spec') (h : c.Adjusted c') (subject : String)
    {p p' : Progress} (hp : p'.draft.IsAnchored) :
    Traced.Follows (fun _ p' => p'.draft.IsAnchored) (s.placeClause spec subject p c)
      (s.placeClause spec' subject p' c') := by
  have hUri : spec'.uri = spec.uri := by rw [hSpec.same]
  have hDatatype : spec'.datatype = spec.datatype := by rw [hSpec.same]
  unfold Settings.placeClause
  rw [hUri, hDatatype]
  refine (translate_follows h none spec.datatype).bind fun found found' hFound => ?_
  -- whether a fragment is found is decided alike, except that the second run may give up
  cases found with
  | none =>
    rw [hFound.nothing rfl]
    exact .pure hp
  | some fragment =>
    cases found' with
    | none => exact .of_answers (.pure hp)
    | some fragment' =>
      refine .same _ fun function _ => .of_answers ?_
      exact Traced.Answers.lift (Progress.place_answers hp subject function fragment')

/-- A condition that is accepted wherever another one is follows it. -/
theorem Progress.filter_follows {limit : Nat} {e e' : String} {p p' : Progress}
    (hp : p'.draft.IsAnchored) (h : AcceptedToo e e') :
    Follows (fun _ done => done.draft.IsAnchored) (p.write (·.filter limit (.str e)))
      (p'.write (·.filter limit (.str e'))) := by
  intro done hDone
  obtain ⟨hAccepted, -⟩ := write_filter_eq_ok_iff.mp hDone
  refine Progress.filter_answers hp fun hDeep => ?_
  cases (h limit hAccepted).symm.trans hDeep

/-- What is known of the progress of an adjusted spec: its draft keeps a subject, and the bounds are
those of the spec. -/
structure SpecProgress.Keeps (p p' : SpecProgress) : Prop where
  anchored : p'.draft.IsAnchored
  bounds : p'.bounds = p.bounds

/-- A constraint with another radius is written or reported. A bound is the same as before. -/
theorem constrain_follows (hSpec : spec.Adjusted spec') (h : c.Adjusted c') {kind : FilterKind}
    (hKind : FilterKind.of c.name = .ok kind) {p p' : SpecProgress} (hp : p.Keeps p') :
    Traced.Follows SpecProgress.Keeps (s.constrain spec kind p c)
      (s.constrain spec' kind p' c') := by
  have hVar : spec'.var = spec.var := by rw [hSpec.same]
  have hDatatype : spec'.datatype = spec.datatype := by rw [hSpec.same]
  have hValue : c'.value = c.value := by rw [h.same]
  have hComparison : c'.comparison = c.comparison := by rw [h.same]
  unfold Settings.constrain
  rw [hVar, hDatatype, hValue, hComparison]
  refine (translate_follows h spec.var spec.datatype).bind fun found found' hFound => ?_
  cases found with
  | none =>
    rw [hFound.nothing rfl]
    exact .pure hp
  | some fragment =>
    by_cases hRange : kind = .range
    · -- a range is no circle, so its bound is the same
      subst hRange
      rw [hFound.same (by rw [hKind]; nofun)]
      exact .pure ⟨hp.anchored, congrArg (· ++ _) hp.bounds⟩
    · have hNot : (kind == .range) = false := beq_eq_false_iff_ne.mpr hRange
      simp only [hNot, Bool.false_eq_true, if_false]
      cases found' with
      | none =>
        intro q hq
        obtain ⟨done, -, ⟨⟩⟩ := Traced.outcome_bind_eq_ok_iff.mp hq
        exact Traced.Answers.pure ⟨hp.anchored, hp.bounds⟩
      | some fragment' =>
        have hFilter : Follows (fun _ done => done.draft.IsAnchored)
            (p.write (·.filter s.nesting (.str fragment)))
            (p'.write (·.filter s.nesting (.str fragment'))) :=
          Progress.filter_follows hp.anchored (hFound.accepted _ rfl _ rfl)
        exact (Traced.Follows.lift hFilter).bind fun _ _ hDone => .pure ⟨hDone, hp.bounds⟩

/-- A clause with another radius is applied or reported. -/
theorem applyClause_follows (hSpec : spec.Adjusted spec') (h : c.Adjusted c') (o : Observable)
    (key : String) {p p' : SpecProgress} (hp : p.Keeps p') :
    Traced.Follows SpecProgress.Keeps (s.applyClause spec o key p c)
      (s.applyClause spec' o key p' c') := by
  have hUri : spec'.uri = spec.uri := by rw [hSpec.same]
  have hName : c'.name = c.name := by rw [h.same]
  unfold Settings.applyClause Clause.isSelected
  rw [hUri, hName]
  -- what is decided before the clause is used does not look at the radius
  split
  · exact .pure hp
  refine .same _ fun isGeo _ => ?_
  split
  · refine (placeClause_follows hSpec h _ hp.anchored).bind fun done done' hDone => ?_
    exact .pure ⟨hDone, hp.bounds⟩
  refine .same _ fun kind hKind => ?_
  split
  · refine Traced.Follows.bind (R := fun _ _ => True) ?_ fun _ _ _ => .pure hp
    exact .of_answers (.of_exists ⟨(), outcome_requestFunction _, trivial⟩)
  · exact constrain_follows hSpec h (raise_eq_ok_iff.mp hKind) hp

/-- The bounds are the same, so they are merged to a condition that is written again. -/
theorem writeBounds_follows {limit : Nat} {p p' : SpecProgress} (hp : p.Keeps p') :
    Traced.Follows (fun _ p' => p'.draft.IsAnchored) (p.writeBounds limit)
      (p'.writeBounds limit) := by
  unfold SpecProgress.writeBounds
  rw [hp.bounds]
  split
  · exact .pure hp.anchored
  refine .same _ fun merged _ => ?_
  cases merged with
  | none => exact .pure hp.anchored
  | some e => exact Traced.Follows.lift (Progress.filter_follows hp.anchored fun _ => id)

/-- A spec with other radii is applied or reported. -/
theorem applySpec_follows (h : spec.Adjusted spec') (o : Observable) (key : String)
    {p p' : Progress} (hp : p'.draft.IsAnchored) :
    Traced.Follows (fun _ p' => p'.draft.IsAnchored) (s.applySpec o key p spec)
      (s.applySpec o key p' spec') := by
  have hUri : spec'.uri = spec.uri := by rw [h.same]
  unfold Settings.applySpec
  rw [hUri]
  refine .same _ fun predicate _ => ?_
  -- the triple of the spec, its clauses one by one, and then their bounds
  have hWrite : Answers False (fun p' => p'.draft.IsAnchored)
      (p'.write (spec'.writeTriple (bracketUrl o.subject) predicate)) :=
    Progress.write_answers (spec'.writeTriple_answers hp (bracketUrl o.subject) predicate)
  refine Traced.Follows.bind (.of_answers (Traced.Answers.lift hWrite)) fun _ start' hStart => ?_
  refine Traced.Follows.bind (R := fun _ _ => True)
    (.of_answers (.of_exists ⟨(), outcome_noteSelected spec', trivial⟩)) fun _ _ _ => ?_
  refine Traced.Follows.bind (R := SpecProgress.Keeps) ?_ fun done done' hDone =>
    writeBounds_follows hDone
  refine Traced.Follows.foldlM h.clauses ⟨hStart, rfl⟩ fun c c' hClause q q' hq => ?_
  exact applyClause_follows h hClause o key hq

/-- In a search by place, too, a spec with other radii is applied or reported. -/
theorem applyLocationSpec_follows (h : spec.Adjusted spec') (entity : String) {p p' : Progress}
    (hp : p'.draft.IsAnchored) :
    Traced.Follows (fun _ p' => p'.draft.IsAnchored) (s.applyLocationSpec entity p spec)
      (s.applyLocationSpec entity p' spec') := by
  have hUri : spec'.uri = spec.uri := by rw [h.same]
  have hVar : spec'.var = spec.var := by rw [h.same]
  have hDatatype : spec'.datatype = spec.datatype := by rw [h.same]
  unfold Settings.applyLocationSpec
  rw [hUri]
  -- the loop over the clauses: the name tells which of the three branches is taken
  refine .same _ fun isGeo _ => Traced.Follows.foldlM h.clauses hp fun c c' hClause q q' hq => ?_
  have hName : c'.name = c.name := by rw [hClause.same]
  unfold Settings.applyLocationClause Clause.isSelected
  rw [hName, hVar, hDatatype]
  split
  · exact .pure hq
  split
  · exact placeClause_follows h hClause entity hq
  refine (translate_follows hClause spec.var spec.datatype).bind fun found found' hFound => ?_
  cases found' with
  | none => exact .of_answers (.pure hq)
  | some fragment' =>
    cases found with
    | none => cases hFound.nothing rfl
    | some fragment =>
      exact Traced.Follows.lift (Progress.filter_follows hq (hFound.accepted _ rfl _ rfl))

end

-- ---------------------------------------------------------------------------
-- Requests
-- ---------------------------------------------------------------------------

section

variable {s : Settings} {r r' : Request}

/-- The same request as far as its filters are concerned. -/
theorem Request.Adjusted.related (h : r.Adjusted r') :
    r.Related FilterSpec.Adjusted { r with filters := r'.filters } := ⟨rfl, h.filters⟩

/-- The pattern of an observable with other amounts is built or reported. -/
theorem subgraph_follows (h : r.Adjusted r') {o o' : Observable} (ho : o.Adjusted o') :
    Traced.Follows (fun _ _ => True) (s.subgraph r o) (s.subgraph r' o') := by
  obtain ⟨limit, rfl⟩ : ∃ limit, o' = { o with limit } := ⟨_, ho⟩
  have hKeys : r'.keys = r.keys := by rw [h.same]
  have hSpecs : List.Forall₂ FilterSpec.Adjusted (r.specsOf (o.key r.keys))
      (r'.specsOf (o.key r.keys)) := h.related.specsOf (o.key r.keys)
  unfold Settings.subgraph
  rw [hKeys]
  refine .same _ fun _ _ => .same _ fun draft hDraft => ?_
  have hAnchored : draft.IsAnchored := Draft.isAnchored_of_triple hDraft
  refine Traced.Follows.bind (R := fun _ p' : Progress => p'.draft.IsAnchored) ?_ fun _ _ _ => ?_
  · exact Traced.Follows.foldlM hSpecs hAnchored fun spec spec' hSpec p p' hp =>
      applySpec_follows hSpec o _ hp
  -- the modifiers are read from the limit, which may be another one now
  refine .of_answers ?_
  refine (Traced.Answers.lift (modifiersOf_answers o.sort? limit)).bind fun modifiers _ => ?_
  exact .noted rfl (.pure trivial)

/-- A search by place with other radii is built or reported. -/
theorem locationQuery_follows (h : r.Adjusted r') :
    Traced.Follows (fun _ _ => True) (s.locationQuery r) (s.locationQuery r') := by
  have hPattern : r'.readPattern = r.readPattern := by
    rw [Request.readPattern, Request.readPattern, h.same]
  have hPlaced : List.Forall₂ (fun x y => x.1 = y.1 ∧ FilterSpec.Adjusted x.2 y.2)
      r.placedSpecs r'.placedSpecs := h.related.placedSpecs
  unfold Settings.locationQuery
  rw [hPattern]
  refine .same _ fun pattern _ => .same _ fun draft hDraft => ?_
  have hSensor : Answers False Draft.IsAnchored (s.sensorDraft pattern) :=
    sensorDraft_answers s pattern
  have hAnchored : draft.IsAnchored := hSensor.of_eq_ok hDraft
  refine Traced.Follows.bind (R := fun _ p' : Progress => p'.draft.IsAnchored) ?_ fun _ _ _ => ?_
  · refine Traced.Follows.foldlM hPlaced hAnchored ?_
    rintro ⟨entity, spec⟩ ⟨entity', spec'⟩ ⟨hEntity, hSpec⟩ p p' hp
    dsimp only at hEntity hSpec
    subst hEntity
    exact applyLocationSpec_follows hSpec entity hp
  refine .same _ fun sample _ => .same _ fun terms _ => .of_answers ?_
  exact .noted rfl (.pure trivial)

/-- **Amounts do not break a request.** If a request is built, then with other limits and other
radii it is built too, or it is reported what is wrong with it. -/
theorem buildRequest_follows (h : r.Adjusted r') :
    Traced.Follows (fun _ _ => True) (s.buildRequest r) (s.buildRequest r') := by
  have hLocation : r'.hasLocationFilters = r.hasLocationFilters := h.related.hasLocationFilters
  -- the notes of both runs are kept beside the subgraphs, as the query is built from both
  have hSubgraphs : Traced.Follows (List.Forall₂ fun _ _ => True)
      (r.observables.mapM (s.subgraph r)) (r'.observables.mapM (s.subgraph r')) :=
    Traced.Follows.mapM h.observables fun o o' ho => subgraph_follows h ho
  have hBoth : Traced.Follows (fun x y => List.Forall₂ (fun _ _ => True) x.1 y.1)
      (r.observables.mapM (s.subgraph r)).withNotes
      (r'.observables.mapM (s.subgraph r')).withNotes :=
    Follows.map hSubgraphs fun _ _ hSame => hSame
  unfold Settings.buildRequest
  refine hBoth.bind ?_
  rintro ⟨subgraphs, notes⟩ ⟨subgraphs', notes'⟩ hSame
  have hEmpty : subgraphs'.isEmpty = subgraphs.isEmpty := by cases hSame <;> rfl
  dsimp only
  rw [hEmpty, hLocation]
  split
  · exact .of_answers (s.observableQuery_answers r' subgraphs' notes')
  split
  · exact locationQuery_follows h
  · exact .of_answers (Answers.error (.missingField _ _))

/-- If a request has a text, then with other amounts it has one too, or it is reported. -/
theorem compile_follows {payload payload' : Json}
    (hRead : Request.read payload = .ok r) (hRead' : Request.read payload' = .ok r')
    (h : r.Adjusted r') :
    Follows (fun _ _ => True) (s.compile payload) (s.compile payload') := by
  intro text hText
  obtain ⟨q, hq, hText⟩ := bind_eq_ok_iff.mp hText
  obtain ⟨r₀, hRead₀, hBuild⟩ := build_eq_ok_iff.mp hq
  obtain rfl : r₀ = r := Except.ok.inj (hRead₀.symm.trans hRead)
  have hNames := SelectQuery.text_names (raise_eq_ok_iff.mp hText)
  rw [build_prefixes hq] at hNames
  have hAnswers : Answers False (fun _ => True) (s.buildRequest r').outcome :=
    buildRequest_follows h q hBuild
  have hBuild' : (s.build payload').outcome = (s.buildRequest r').outcome := by
    rw [Settings.build, Traced.outcome_bind, Traced.outcome_lift, hRead']
    rfl
  rw [Settings.compile, hBuild']
  -- the prefixes are the same, so the first text shows that the second query can be written
  cases hOutcome : (s.buildRequest r').outcome with
  | ok q' =>
    have hPrefixes : q'.prefixes = s.prefixes := build_prefixes (hBuild'.trans hOutcome)
    obtain ⟨text', hText'⟩ :=
      SelectQuery.exists_text (buildRequest_fault? hOutcome) (hPrefixes ▸ hNames)
    exact .of_exists ⟨text', bind_eq_ok_iff.mpr ⟨q', rfl, raise_eq_ok_iff.mpr hText'⟩, trivial⟩
  | error f =>
    rw [hOutcome] at hAnswers
    cases hAnswers with
    | error hReported => exact .error hReported
    | tooDeep hDeep => exact hDeep.elim

end

end SparqlSelect
