import SparqlSelect.Proofs.Compile.Equivalent
import SparqlSelect.Proofs.Compile.Streams
import SparqlSelect.Proofs.Request.Modifiers

/-!
# Clauses of different streams commute

The conditions of a spec, its lower bounds, its upper bounds and the functions of each category are
used apart from each other: conditions and merged bounds are written with the spec, and the
functions of all observables are computed afterwards, category by category. So a spec whose clauses
are put into another order succeeds or fails as before and writes the same, as long as each stream
keeps its order. What is selected does not depend on clauses, and the later passes see nothing of
an observable but its pattern, the variables to select and the functions of one category.

* `FilterSpec.Reordered` — specs that differ in the order of their clauses.
* `applySpec_alike_eq`, `FilterSpec.Reordered.agrees` — what comes of a spec.
* `buildRequest_alike_eq` — the query of a request.
* `compile_reordered` — the text of a payload.
-/

namespace SparqlSelect

/-- A spec is the same, or it is on no geospatial function and has its clauses in another order. -/
def FilterSpec.Reordered (s : Settings) (spec spec' : FilterSpec) : Prop :=
  spec' = spec ∨ s.isGeoFunction spec.uri ≠ .ok true ∧
    spec' = { spec with clauses := spec'.clauses } ∧
    SparqlSelect.Reordered s.stream? spec.clauses spec'.clauses

section

variable {s : Settings} {spec spec' : FilterSpec} {o : Observable} {key : String}

theorem FilterSpec.Reordered.symm (h : spec.Reordered s spec') : spec'.Reordered s spec := by
  obtain rfl | ⟨hPlain, hSame, hOrder⟩ := h
  · exact .inl rfl
  · refine .inr ⟨?_, ?_, hOrder.symm⟩
    · rw [hSame]
      exact hPlain
    · rw [hSame]

/-- A spec that succeeds does so with its clauses in another order, and writes the same. -/
theorem applySpec_ok_of_reordered {p p' : Progress} (hSpec : spec.Reordered s spec')
    (h : (s.applySpec o key p spec).outcome = .ok p') :
    (s.applySpec o key p spec').outcome = .ok p' := by
  obtain rfl | ⟨hNot, hSame, hOrder⟩ := hSpec
  · exact h
  obtain ⟨predicate, -, -, -, hPredicate, -⟩ := applySpec_eq_ok h
  have hPlain : s.isGeoFunction spec.uri = .ok false :=
    (isGeoFunction_of_termOf hPredicate).resolve_left hNot
  generalize spec'.clauses = clauses at hSame hOrder
  subst hSame
  have hPlain' : s.isGeoFunction ({ spec with clauses } : FilterSpec).uri = .ok false := hPlain
  -- the step of a plain attribute is told by what each clause admits and by the merged bounds:
  -- neither depends on the order across the streams
  obtain ⟨_, start, merged, hPredicate, hStart, hAdmits, hMerged, hFits, rfl⟩ :=
    (applySpec_plain_iff hPlain).mp h
  refine (applySpec_plain_iff hPlain').mpr
    ⟨_, start, merged, hPredicate, hStart, fun c hc => ?_, ?_, hFits, ?_⟩
  · exact hAdmits c (hOrder.perm.mem_iff.mpr hc)
  · rw [mergedExpression_eq_of_reordered hOrder, hMerged]
  · rw [conditions_eq_of_reordered hOrder hAdmits]

/-- The same comes of a spec whatever the order of its clauses. -/
theorem applySpec_alike_eq (hSpec : spec.Reordered s spec') (p : Progress) :
    Alike Eq (s.applySpec o key p spec).outcome (s.applySpec o key p spec').outcome :=
  alike_eq_iff.mpr fun _ =>
    ⟨applySpec_ok_of_reordered hSpec, applySpec_ok_of_reordered hSpec.symm⟩

-- ---------------------------------------------------------------------------
-- Requests
-- ---------------------------------------------------------------------------

variable {r r' : Request}

/-- Specs whose clauses are in another order agree in all that is seen of them. -/
theorem FilterSpec.Reordered.agrees (h : spec.Reordered s spec') : spec.Agrees s spec' where
  written _ _ p := applySpec_alike_eq h p
  selected := by
    obtain rfl | ⟨-, hSame, -⟩ := h
    · rfl
    · rw [hSame]
      rfl
  called o key category := by
    obtain rfl | ⟨-, hSame, hOrder⟩ := h
    · rfl
    · rw [hSame]
      exact (callsOf_eq_of_reordered hOrder o key category).symm

/-- The same query comes of the observables of a request. -/
theorem buildRequest_alike_eq (h : r.Related (FilterSpec.Reordered s) r')
    (hSome : r.observables ≠ []) :
    Alike Eq (s.buildRequest r).outcome (s.buildRequest r').outcome :=
  buildRequest_congr (h.mono fun _ _ hSpec => hSpec.agrees) (.inl hSome)

-- ---------------------------------------------------------------------------
-- Payloads
-- ---------------------------------------------------------------------------

variable {place : SpecPlace} {w w' : Json} {items items' : List Json}

/-- The stream of an item among the clauses of a spec, if it is in one. -/
def Settings.itemStream? (s : Settings) (item : Json) : Option ClauseStream :=
  (Clause.read? item).bind s.stream?

/-- **Clauses of different streams commute.** Let a payload list observables, and take any spec of
it whose IRI is no geospatial function. Put its clauses into another order, but keep the order in
each of five streams: ranges that ask for more, ranges that ask only for less, clauses that give a
condition of their own, and clauses that ask for an aggregate or for a temporal function. Then the
new payload has a query exactly if the old one has, and the text is the same. -/
theorem compile_reordered (hItems : clauseItems w = .ok items)
    (hItems' : clauseItems w' = .ok items') (hOrder : Reordered s.itemStream? items items')
    (hPlain : s.isGeoFunction place.uri ≠ .ok true)
    (hSome : ((place.requestWith w).atPath ["observables"]).isSet = true) (text : String) :
    s.compile (place.requestWith w) = .ok text ↔ s.compile (place.requestWith w') = .ok text := by
  -- the reordering is carried from the list that is read to the spec, and on to the request
  have hSpecs (path : String) : Alike (FilterSpec.Reordered s)
      (FilterSpec.read place.specs.uri (place.specWith w) path)
      (FilterSpec.read place.specs.uri (place.specWith w') path) := by
    refine (place.readSpec_reordered hItems hItems' hOrder path).mono ?_
    rintro spec spec' ⟨hUri, hSame, hClauses⟩
    exact .inr ⟨hUri ▸ hPlain, hSame, hClauses⟩
  have hRequests := place.readRequest_alike (fun _ => .inl rfl) hSpecs
  have hQueries : Alike Eq (s.build (place.requestWith w)).outcome
      (s.build (place.requestWith w')).outcome := by
    simp only [Settings.build, Traced.outcome_bind, Traced.outcome_lift]
    refine hRequests.withOutcomes.bind ?_
    rintro r r' ⟨hRelated, hRead, -⟩
    exact buildRequest_alike_eq hRelated (Request.observables_ne_nil hSome hRead)
  refine alike_eq_iff.mp ?_ text
  refine hQueries.bind ?_
  rintro q _ rfl
  exact .refl (fun _ => rfl) _

/-- A spec whose clauses are of all five streams. -/
def depthPlace : SpecPlace where
  request := ⟨[("observables", .arr [.obj [("subject", .str "?st"),
    ("predicate", .str "x:value"), ("object", .str "?v")]])], [], by simp⟩
  key := "x:value"
  entries := ⟨[], [], by simp⟩
  specs := .item [] []
  spec := ⟨[("uri", .str "x:depth"), ("predicateName", .str "?d"),
    ("datatype", .str "xsd:int")], [], by simp⟩

/-- Two lower and two upper bounds, two conditions, two aggregates and a temporal function. -/
def depthClauses : List Json := [
  clauseOf "range" [("expression", .str "gt"), ("value", .int 3)],
  clauseOf "range" [("expression", .str "gt"), ("value", .int 30)],
  clauseOf "range" [("expression", .str "lt"), ("value", .int 1)],
  clauseOf "range" [("expression", .str "<="), ("value", .int 40)],
  clauseOf "contain" [("value", .str "m")],
  clauseOf "bound" [],
  clauseOf "function" [("value", .str "avg")],
  clauseOf "function" [("value", .str "max")],
  clauseOf "date function" [("value", .str "year")]]

/-- The same clauses, one stream put into another. -/
def mixedDepthClauses : List Json := [
  clauseOf "date function" [("value", .str "year")],
  clauseOf "contain" [("value", .str "m")],
  clauseOf "range" [("expression", .str "lt"), ("value", .int 1)],
  clauseOf "function" [("value", .str "avg")],
  clauseOf "range" [("expression", .str "gt"), ("value", .int 3)],
  clauseOf "function" [("value", .str "max")],
  clauseOf "range" [("expression", .str "<="), ("value", .int 40)],
  clauseOf "range" [("expression", .str "gt"), ("value", .int 30)],
  clauseOf "bound" []]

theorem compile_reordered_depth :
    ∃ text, Settings.standard.compile (depthPlace.requestWith (.arr depthClauses)) = .ok text ∧
      Settings.standard.compile (depthPlace.requestWith (.arr mixedDepthClauses)) = .ok text := by
  obtain ⟨text, hText⟩ := exists_of_isOk
    (show (Settings.standard.compile (depthPlace.requestWith (.arr depthClauses))).isOk = true by
      decide +kernel)
  have hPlaces : Reordered (fun i => depthClauses[i]?.bind Settings.standard.itemStream?)
      (List.range 9) [8, 4, 2, 6, 0, 7, 3, 1, 5] :=
    ⟨by decide, by rintro (_ | _ | _ | _ | _) <;> decide +kernel⟩
  have hOrder : Reordered Settings.standard.itemStream? depthClauses mixedDepthClauses :=
    hPlaces.filterMap (f := fun i => depthClauses[i]?) fun i item hItem => by
      simp only [hItem, Option.bind_some]
  have hPlain : Settings.standard.isGeoFunction depthPlace.uri = .ok false := by rfl
  exact ⟨text, hText, (compile_reordered rfl rfl hOrder (by simp [hPlain]) rfl text).mp hText⟩

end

end SparqlSelect
