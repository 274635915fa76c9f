import SparqlSelect.Proofs.Compile.Build
import SparqlSelect.Proofs.Compile.Demands
import SparqlSelect.Proofs.Compile.Specs
import SparqlSelect.Proofs.Query.Relation
import SparqlSelect.Proofs.Request.Place

/-!
# Specs that come to the same

A request is compiled spec by spec, and nothing of a spec is seen afterwards but what it wrote, the
variable that it selects and the functions of each category that it asks for. So specs that agree in
these can stand for one another in any request that lists observables. In a search by place a spec
only writes, so there it is enough that they write the same.

* `FilterSpec.Agrees`, `FilterSpec.AgreesInSearch` — specs that come to the same, and in a search.
* `subgraph_congr`, `requested_congr`, `selection_congr` — what is kept of an observable.
* `Clause.GivesNothing`, `FilterSpec.writesAlike_insert` — a spec with a clause more that gives
  nothing.
* `buildRequest_of_queries`, `buildRequest_congr` — the queries of two requests.
* `compile_congr` — the texts of two payloads.
-/

namespace SparqlSelect

/-- Specs that come to the same in every observable: they write the same, select the same and ask
for the same functions of each category. -/
structure FilterSpec.Agrees (s : Settings) (spec spec' : FilterSpec) : Prop where
  written : ∀ o key p,
    Alike Eq (s.applySpec o key p spec).outcome (s.applySpec o key p spec').outcome
  selected : spec.selected? = spec'.selected?
  called : ∀ o key category, (s.callsOf o key spec).filter (·.category = category) =
    (s.callsOf o key spec').filter (·.category = category)

/-- Specs that write the same in every observable. -/
def FilterSpec.WritesAlike (s : Settings) (spec spec' : FilterSpec) : Prop :=
  ∀ o key p, Alike Eq (s.applySpec o key p spec).outcome (s.applySpec o key p spec').outcome

/-- Specs that write the same in every search by place. -/
def FilterSpec.AgreesInSearch (s : Settings) (spec spec' : FilterSpec) : Prop :=
  ∀ entity p,
    Alike Eq (s.applyLocationSpec entity p spec).outcome
      (s.applyLocationSpec entity p spec').outcome

section

variable {s : Settings} {r r' : Request}

theorem FilterSpec.Agrees.refl (s : Settings) (spec : FilterSpec) : spec.Agrees s spec :=
  ⟨fun _ _ _ => .refl (fun _ => rfl) _, rfl, fun _ _ _ => rfl⟩

theorem FilterSpec.AgreesInSearch.refl (s : Settings) (spec : FilterSpec) :
    spec.AgreesInSearch s spec := fun _ _ => .refl (fun _ => rfl) _

-- ---------------------------------------------------------------------------
-- Observables
-- ---------------------------------------------------------------------------

/-- The same comes of an observable. -/
theorem subgraph_congr (h : r.Related (FilterSpec.WritesAlike s) r') (o : Observable) :
    Alike Eq (s.subgraph r o).outcome (s.subgraph r' o).outcome := by
  have hKeys : r'.keys = r.keys := by rw [h.same]
  simp only [Settings.subgraph, Traced.outcome_bind, Traced.outcome_lift, Traced.outcome_foldlM,
    hKeys]
  refine Alike.same _ fun _ _ => Alike.same _ fun draft _ => ?_
  refine (Alike.foldlM (h.specsOf (o.key r.keys)) rfl ?_).bind ?_
  · rintro spec spec' hSpec p _ rfl
    exact hSpec o _ p
  · rintro done _ rfl
    exact .refl (fun _ => rfl) _

/-- The same functions of a category are asked for in the same order. -/
theorem requested_congr (h : r.Related (FilterSpec.Agrees s) r') (category : FunctionCategory) :
    s.requested category r = s.requested category r' := by
  have hKeys : r'.keys = r.keys := by rw [h.same]
  have hObservables : r'.observables = r.observables := by rw [h.same]
  rw [Settings.requested, Settings.requested, hObservables, hKeys]
  refine List.flatMap_congr fun o _ => ?_
  rw [List.filter_flatMap, List.filter_flatMap]
  exact flatMap_eq_of_forall₂ (h.specsOf _) fun spec spec' hSpec => hSpec.called o _ category

/-- The same variables are selected. -/
theorem selection_congr (h : r.Related (fun spec spec' => spec.selected? = spec'.selected?) r') :
    r.selection = r'.selection := by
  have hKeys : r'.keys = r.keys := by rw [h.same]
  have hObservables : r'.observables = r.observables := by rw [h.same]
  rw [Request.selection, Request.selection, hObservables, hKeys]
  refine List.flatMap_congr fun o _ => congrArg _ ?_
  exact filterMap_eq_of_forall₂ (h.specsOf _) fun _ _ hSpec => hSpec

/-- Notes with the same demands give the same query. -/
theorem observableQuery_congr {subgraphs : List Subgraph} {notes notes' : List Note}
    (hModifiers : r.modifiers = r'.modifiers)
    (hSelected : Traced.selectedVars notes = Traced.selectedVars notes')
    (hCalls : ∀ category, Traced.calls category notes = Traced.calls category notes') :
    s.observableQuery r subgraphs notes = s.observableQuery r' subgraphs notes' := by
  unfold Settings.observableQuery Settings.assembledQuery aggregateGroups temporalCalls
  rw [hModifiers, hSelected, hCalls, hCalls]

-- ---------------------------------------------------------------------------
-- Searches by place
-- ---------------------------------------------------------------------------

/-- The same comes of a search by place. -/
theorem locationQuery_congr (h : r.Related (FilterSpec.AgreesInSearch s) r') :
    Alike Eq (s.locationQuery r).outcome (s.locationQuery r').outcome := by
  have hPattern : r'.readPattern = r.readPattern := by rw [h.same]; rfl
  simp only [Settings.locationQuery, Traced.outcome_bind, Traced.outcome_lift,
    Traced.outcome_foldlM, hPattern]
  refine Alike.same _ fun pattern _ => Alike.same _ fun draft _ => ?_
  refine (Alike.foldlM h.placedSpecs rfl ?_).bind ?_
  · rintro ⟨entity, spec⟩ ⟨entity', spec'⟩ ⟨hEntity, hSpec⟩ p _ rfl
    dsimp only at hEntity hSpec
    subst hEntity
    exact hSpec entity p
  · rintro done _ rfl
    exact .refl (fun _ => rfl) _

-- ---------------------------------------------------------------------------
-- A clause more
-- ---------------------------------------------------------------------------

section

variable {spec : FilterSpec} {o : Observable} {key entity : String} {c : Clause}
  {before after : List Clause}

/-- A clause gives no fragment, whatever variable and datatype it is translated for, or it was not
chosen. -/
def Clause.GivesNothing (s : Settings) (c : Clause) : Prop :=
  c.isSelected = true → ∀ var datatype, (s.translate c var datatype).outcome = .ok none

/-- A clause that gives nothing changes nothing that has been written for an observable. -/
theorem applyClause_of_givesNothing (h : c.GivesNothing s) {isGeo : Bool}
    (hGeo : s.isGeoFunction spec.uri = .ok isGeo) (p : SpecProgress) :
    (s.applyClause spec o key p c).outcome = .ok p := by
  unfold Settings.applyClause
  split
  · rfl
  rename_i hChosen
  have hNone := h (by simpa using hChosen)
  simp only [Traced.outcome_bind, Traced.outcome_lift, bind_eq_ok_iff, raise_eq_ok_iff]
  refine ⟨isGeo, hGeo, ?_⟩
  -- nothing found is nothing placed, nothing constrained, and a function leaves only a note
  cases isGeo with
  | true =>
    have hPlaced : (s.placeClause spec (bracketUrl o.subject) p.toProgress c).outcome =
        .ok p.toProgress := by
      rw [Settings.placeClause, Traced.outcome_bind, hNone]
      rfl
    rw [if_pos rfl, Traced.outcome_bind, hPlaced]
    rfl
  | false =>
    obtain ⟨kind, hKind⟩ := kind_of_translate (hNone none none)
    rw [if_neg Bool.false_ne_true, Traced.outcome_bind]
    refine bind_eq_ok_iff.mpr ⟨kind, raise_eq_ok_iff.mpr hKind, ?_⟩
    cases hCategory : kind.category? with
    | none =>
      dsimp only
      rw [Settings.constrain, Traced.outcome_bind, hNone]
      rfl
    | some category =>
      dsimp only
      rw [Traced.outcome_bind, outcome_requestFunction]
      rfl

/-- Neither does it change anything in a search by place. -/
theorem applyLocationClause_of_givesNothing (h : c.GivesNothing s) (isGeo : Bool) (p : Progress) :
    (s.applyLocationClause spec isGeo entity p c).outcome = .ok p := by
  unfold Settings.applyLocationClause
  split
  · rfl
  rename_i hChosen
  have hNone := h (by simpa using hChosen)
  -- nothing is found, whether the attribute is geospatial or not
  cases isGeo with
  | true =>
    rw [if_pos rfl, Settings.placeClause, Traced.outcome_bind, hNone]
    rfl
  | false =>
    rw [if_neg (by decide), Traced.outcome_bind, hNone]
    rfl

/-- The spec of an observable writes the same with a clause more that gives nothing. -/
theorem applySpec_insert (h : c.GivesNothing s) (hClauses : spec.clauses = before ++ after)
    (p : Progress) :
    (s.applySpec o key p { spec with clauses := before ++ c :: after }).outcome =
      (s.applySpec o key p spec).outcome := by
  have hStep : s.applyClause { spec with clauses := before ++ c :: after } o key =
      s.applyClause spec o key := rfl
  simp only [Settings.applySpec, Traced.outcome_bind, Traced.outcome_lift, hStep, hClauses]
  cases hPredicate : termOf spec.uri with
  | error f => rfl
  | ok predicate =>
    -- a spec with a term is on a geospatial function or it is not, so its clauses are gone through
    have hGeo : ∃ isGeo, s.isGeoFunction spec.uri = .ok isGeo :=
      (isGeoFunction_of_termOf hPredicate).elim (⟨true, ·⟩) (⟨false, ·⟩)
    obtain ⟨isGeo, hGeo⟩ := hGeo
    refine congrArg _ (funext fun _ => congrArg _ (funext fun _ => ?_))
    rw [Traced.outcome_foldlM_insert fun b => applyClause_of_givesNothing h hGeo b]
    rfl

/-- So does the spec of a search by place. -/
theorem applyLocationSpec_insert (h : c.GivesNothing s) (hClauses : spec.clauses = before ++ after)
    (p : Progress) :
    (s.applyLocationSpec entity p { spec with clauses := before ++ c :: after }).outcome =
      (s.applyLocationSpec entity p spec).outcome := by
  have hStep (isGeo : Bool) :
      s.applyLocationClause { spec with clauses := before ++ c :: after } isGeo entity =
        s.applyLocationClause spec isGeo entity := rfl
  simp only [Settings.applyLocationSpec, Traced.outcome_bind, Traced.outcome_lift, hStep, hClauses]
  refine congrArg _ (funext fun isGeo => ?_)
  exact Traced.outcome_foldlM_insert
    (fun b => applyLocationClause_of_givesNothing h isGeo b) before after p

/-- With a clause more that gives nothing, a spec writes the same. -/
theorem FilterSpec.writesAlike_insert (h : c.GivesNothing s)
    (hClauses : spec.clauses = before ++ after) :
    spec.WritesAlike s { spec with clauses := before ++ c :: after } := by
  intro o key p
  rw [applySpec_insert h hClauses]
  exact .refl (fun _ => rfl) _

theorem FilterSpec.agreesInSearch_insert (h : c.GivesNothing s)
    (hClauses : spec.clauses = before ++ after) :
    spec.AgreesInSearch s { spec with clauses := before ++ c :: after } := by
  intro entity p
  rw [applyLocationSpec_insert h hClauses]
  exact .refl (fun _ => rfl) _

end

-- ---------------------------------------------------------------------------
-- Requests and payloads
-- ---------------------------------------------------------------------------

/-- Requests whose specs write the same come to the same query if what they noted does. -/
theorem buildRequest_of_queries (hWritten : r.Related (FilterSpec.WritesAlike s) r')
    (hQueries : ∀ subgraphs, (r.observables.mapM (s.subgraph r)).outcome = .ok subgraphs →
      (r'.observables.mapM (s.subgraph r')).outcome = .ok subgraphs →
      Alike Eq (s.observableQuery r subgraphs (r.observables.mapM (s.subgraph r)).notes).outcome
        (s.observableQuery r' subgraphs (r'.observables.mapM (s.subgraph r')).notes).outcome)
    (hSearch : r.observables ≠ [] ∨ r.Related (FilterSpec.AgreesInSearch s) r') :
    Alike Eq (s.buildRequest r).outcome (s.buildRequest r').outcome := by
  have hSubs : Alike Eq (r.observables.mapM (s.subgraph r)).outcome
      (r'.observables.mapM (s.subgraph r')).outcome := by
    have hObservables : r'.observables = r.observables := by rw [hWritten.same]
    rw [hObservables, Traced.outcome_mapM, Traced.outcome_mapM]
    refine (Alike.mapM (P := Eq) (S := Eq) (List.forall₂_same.mpr fun _ _ => rfl) ?_).mono ?_
    · rintro o _ rfl
      exact subgraph_congr hWritten o
    · exact fun _ _ hEqual => List.forall₂_eq_eq_eq ▸ hEqual
  simp only [Settings.buildRequest, Traced.outcome_bind]
  -- equal subgraphs come with the notes of their own runs, which the calls are taken from
  refine (hSubs.withOutcomes.map (S := fun x y => x.1 = y.1 ∧
    (r.observables.mapM (s.subgraph r)).outcome = .ok x.1 ∧
    (r'.observables.mapM (s.subgraph r')).outcome = .ok y.1 ∧
    x.2 = (r.observables.mapM (s.subgraph r)).notes ∧
    y.2 = (r'.observables.mapM (s.subgraph r')).notes)
    fun _ _ hBoth => ⟨hBoth.1, hBoth.2.1, hBoth.2.2, rfl, rfl⟩).bind ?_
  rintro ⟨subgraphs, notes⟩ ⟨_, notes'⟩ ⟨rfl, hOk, hOk', rfl, rfl⟩
  dsimp only
  by_cases hGiven : (!subgraphs.isEmpty) = true
  · rw [if_pos hGiven, if_pos hGiven]
    exact hQueries subgraphs hOk hOk'
  · -- no subgraph means no observable, so the query is the one of a location search
    have hNone : r.observables = [] := by
      have hEmpty : subgraphs = [] := by simpa using hGiven
      have hEach := subgraphs_ok hOk
      rw [hEmpty] at hEach
      exact List.forall₂_nil_right_iff.mp hEach
    rw [if_neg hGiven, if_neg hGiven, hWritten.hasLocationFilters]
    split
    · exact locationQuery_congr (hSearch.resolve_left (absurd hNone))
    · exact .refl (fun _ => rfl) _

/-- The same query comes of a request. -/
theorem buildRequest_congr (h : r.Related (FilterSpec.Agrees s) r')
    (hSearch : r.observables ≠ [] ∨ r.Related (FilterSpec.AgreesInSearch s) r') :
    Alike Eq (s.buildRequest r).outcome (s.buildRequest r').outcome := by
  have hModifiers : r.modifiers = r'.modifiers := by rw [h.same]; rfl
  refine buildRequest_of_queries (h.mono fun _ _ hSpec => hSpec.written) ?_ hSearch
  intro subgraphs hOk hOk'
  rw [observableQuery_congr hModifiers]
  · exact .refl (fun _ => rfl) _
  · rw [selectedVars_eq hOk, selectedVars_eq hOk',
      selection_congr (h.mono fun _ _ hSpec => hSpec.selected)]
  · intro category
    rw [calls_eq category hOk, calls_eq category hOk', requested_congr h]

/-- Payloads whose requests come to the same query have the same text. -/
theorem compile_congr {S : Request → Request → Prop} {payload payload' : Json}
    (hRead : Alike S (Request.read payload) (Request.read payload'))
    (hBuild : ∀ r r', S r r' → Alike Eq (s.buildRequest r).outcome (s.buildRequest r').outcome)
    (text : String) : s.compile payload = .ok text ↔ s.compile payload' = .ok text := by
  have hQueries : Alike Eq (s.build payload).outcome (s.build payload').outcome := by
    simp only [Settings.build, Traced.outcome_bind, Traced.outcome_lift]
    exact hRead.bind hBuild
  refine alike_eq_iff.mp (hQueries.bind ?_) text
  rintro q _ rfl
  exact .refl (fun _ => rfl) _

end

end SparqlSelect
