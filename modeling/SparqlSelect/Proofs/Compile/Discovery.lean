import SparqlSelect.Proofs.Compile.Patterns

/-!
# What a search by place finds

The query of a search by place is known to the last element. Each clause gives at most one of two
things: an element where it comes, or a triple that is deferred to the union at the end. Both are
written for the key of the clause's own entry, so a kept subject never comes into it, as long as no
key is empty.

* `Settings.found?`, `Settings.deferred?` — what a clause gives.
* `Progress.Placed.exact`, `applyLocationSpec_exact` — what clauses and a spec add.
* `build_search` — the whole query.
-/

namespace SparqlSelect

-- ---------------------------------------------------------------------------
-- What clauses give
-- ---------------------------------------------------------------------------

/-- The IRI of a spec as a term; only a text is one. -/
def FilterSpec.term (spec : FilterSpec) : String := (termOf spec.uri).toOption.getD ""

namespace Settings

variable (s : Settings)

/-- Whether a spec is on the IRI of a geospatial function. -/
def isGeospatial (spec : FilterSpec) : Bool := (s.isGeoFunction spec.uri).toOption == some true

/-- The triple that gives the place of a clause as the value of the function of its spec. -/
def placeTriple? (entity : String) (spec : FilterSpec) (c : Clause) : Option Triple :=
  (s.place? spec c).map fun fragment => ⟨entity, spec.term, fragment⟩

/-- The element that a clause gives where it comes: a condition, or on a geospatial function the
triple of its place unless the clause is an alternative. -/
def found? (entity : String) (spec : FilterSpec) (c : Clause) : Option Element :=
  if s.isGeospatial spec then
    if c.isUnion then none else (s.placeTriple? entity spec c).map .triple
  else (s.fragment? spec c).map .filter

/-- The triple that a clause gives for the union: on a geospatial function the triple of its place
if the clause is an alternative. -/
def deferred? (entity : String) (spec : FilterSpec) (c : Clause) : Option Triple :=
  if s.isGeospatial spec && c.isUnion then s.placeTriple? entity spec c else none

/-- The elements that the clauses of a request give, entry by entry, spec by spec and clause by
clause. -/
def foundIn (r : Request) : List Element :=
  r.placedSpecs.flatMap fun (entity, spec) => spec.clauses.filterMap (s.found? entity spec)

/-- The triples that the clauses of a request give for the union, in the same order. -/
def deferredIn (r : Request) : List Triple :=
  r.placedSpecs.flatMap fun (entity, spec) => spec.clauses.filterMap (s.deferred? entity spec)

/-- The triples of a sensor: its pattern, its class, its feature and its position. -/
def sensorTriples (p : SensorPattern) : SensorTriples where
  pattern := ⟨bracketUrl p.subject, bracketUrl p.predicate, bracketUrl p.object⟩
  type := ⟨bracketUrl p.sensor, "a", "<" ++ s.sensorClass.display ++ ">"⟩
  feature := ⟨bracketUrl p.sensor, "<" ++ s.featureOfInterest.display ++ ">", featureVar⟩
  latitude := ⟨bracketUrl p.subject, "<" ++ s.latitude.display ++ ">", "?Latitude"⟩
  longitude := ⟨bracketUrl p.subject, "<" ++ s.longitude.display ++ ">", "?Longitude"⟩

end Settings

section

variable {s : Settings} {spec : FilterSpec} {entity : String} {p p' : Progress}

theorem Group.eq_mk (g : Group) : g = ⟨g.origin, g.elements⟩ := by
  cases g
  rfl

theorem origin_union (d : Draft) (branches : List Branch) :
    (d.union branches).group.origin = d.group.origin := by
  unfold Draft.union
  split <;> rfl

/-- A term does not become empty. -/
theorem bracketUrl_ne_empty {term : String} (h : term ≠ "") : bracketUrl term ≠ "" := by
  unfold bracketUrl
  split
  · simp
  · exact h

-- ---------------------------------------------------------------------------
-- Clauses, specs and entries
-- ---------------------------------------------------------------------------

theorem isGeospatial_of_eq_ok {isGeo : Bool} (h : s.isGeoFunction spec.uri = .ok isGeo) :
    s.isGeospatial spec = isGeo := by
  rw [Settings.isGeospatial, h]
  cases isGeo <;> rfl

/-- A triple of a place that was written for a subject is known. -/
theorem FilterSpec.Places.eq {subject fragment : String} {t : Triple}
    (h : spec.Places subject fragment t) (hSubject : subject ≠ "") :
    t = ⟨subject, spec.term, fragment⟩ := by
  obtain ⟨function, hFunction, hFor⟩ := h
  rw [hFor.eq hSubject, FilterSpec.term, hFunction]
  rfl

theorem eq_map_of_places {subject : String} {fragments : List String} {triples : List Triple}
    (h : List.Forall₂ (spec.Places subject) fragments triples) (hSubject : subject ≠ "") :
    triples = fragments.map fun fragment => ⟨subject, spec.term, fragment⟩ := by
  induction h with
  | nil => rfl
  | cons hPlaces _ ih => rw [hPlaces.eq hSubject, ih, List.map_cons]

/-- On a geospatial function clauses add what they give. -/
theorem Progress.Placed.exact {subject : String} {clauses : List Clause}
    (h : p.Placed s spec subject clauses p') (hSubject : subject ≠ "")
    (hGeo : s.isGeospatial spec = true) :
    p.Adds p' (clauses.filterMap (s.found? subject spec))
      ((clauses.filterMap (s.deferred? subject spec)).map Triple.branch) := by
  obtain ⟨triples, alternatives, hAdds, hTriples, hAlternatives⟩ := h
  -- the clauses are split by whether they join, which is also how they are told apart here
  have hFound : clauses.filterMap (s.found? subject spec) = triples.map .triple := by
    rw [eq_map_of_places hTriples hSubject, List.filterMap_filter, List.map_filterMap,
      List.map_filterMap]
    refine List.filterMap_congr fun c _ => ?_
    cases hUnion : c.isUnion <;>
      simp [Settings.found?, Settings.placeTriple?, hGeo, hUnion, Function.comp_def]
  have hDeferred : clauses.filterMap (s.deferred? subject spec) = alternatives := by
    rw [eq_map_of_places hAlternatives hSubject, List.filterMap_filter, List.map_filterMap]
    refine List.filterMap_congr fun c _ => ?_
    cases hUnion : c.isUnion <;> simp [Settings.deferred?, Settings.placeTriple?, hGeo, hUnion]
  rw [hFound, hDeferred]
  exact hAdds

/-- A loop whose steps add what a function gives for each item adds what it gives for all of
them. -/
theorem foldlM_adds {α : Type} {step : Progress → α → Traced Progress} {a : α → Addition}
    {items : List α} {start done : Progress}
    (hStep : ∀ p, ∀ item ∈ items, ∀ p', (step p item).outcome = .ok p' →
      p.Adds p' (a item).elements ((a item).alternatives.map Triple.branch))
    (h : (items.foldlM step start).outcome = .ok done) :
    start.Adds done (items.flatMap fun item => (a item).elements)
      ((items.flatMap fun item => (a item).alternatives).map Triple.branch) := by
  obtain ⟨additions, hAdditions, hAdds⟩ := foldlM_grows (A := fun item b => b = a item)
    (fun p item hMem p' hItem => ⟨_, rfl, hStep p item hMem p' hItem⟩) h
  have hEach : List.Forall₂ Eq (items.map a) additions :=
    List.forall₂_map_left_iff.mpr (hAdditions.imp fun _ _ hSame => hSame.symm)
  rw [List.forall₂_eq_eq_eq] at hEach
  rw [← hEach, List.flatMap_map, List.flatMap_map] at hAdds
  exact hAdds

/-- A spec adds what its clauses give. -/
theorem applyLocationSpec_exact (hEntity : entity ≠ "")
    (h : (s.applyLocationSpec entity p spec).outcome = .ok p') :
    p.Adds p' (spec.clauses.filterMap (s.found? entity spec))
      ((spec.clauses.filterMap (s.deferred? entity spec)).map Triple.branch) := by
  obtain ⟨isGeo, hIsGeo, -⟩ := applyLocationSpec_eq_ok_iff.mp h
  have hSame : s.isGeospatial spec = isGeo := isGeospatial_of_eq_ok hIsGeo
  cases isGeo with
  | true => exact (applyLocationSpec_geospatial hIsGeo h).exact hEntity hSame
  | false =>
    have hFound : s.found? entity spec = fun c => (s.fragment? spec c).map .filter :=
      funext fun c => by simp [Settings.found?, hSame]
    have hDeferred : s.deferred? entity spec = fun _ => none :=
      funext fun c => by simp [Settings.deferred?, hSame]
    rw [hFound, hDeferred, List.filterMap_none, ← List.map_filterMap]
    exact applyLocationSpec_plain hIsGeo h

theorem sensorDraft_exact {pattern : SensorPattern} {d : Draft}
    (h : s.sensorDraft pattern = .ok d) :
    d.group = ⟨none, (s.sensorTriples pattern).elements⟩ := by
  simp only [Settings.sensorDraft, bracketed, bind_eq_ok_iff, Draft.triple_eq_ok_iff,
    Draft.optional_eq_ok_iff] at h
  obtain ⟨_, ⟨t, hPattern, rfl⟩, _, ⟨type, hType, rfl⟩, _, ⟨feature, hFeature, rfl⟩, _,
    ⟨latitude, hLatitude, rfl⟩, longitude, hLongitude, rfl⟩ := h
  cases checkTriple_str hPattern
  cases checkTriple_str hType
  cases checkTriple_str hFeature
  cases checkTriple_str hLatitude
  cases checkTriple_str hLongitude
  rfl

end

-- ---------------------------------------------------------------------------
-- Whole searches
-- ---------------------------------------------------------------------------

/-- **A search by place, element by element.** Its pattern is the triples of the sensor, then in the
order of the entries, their specs and their clauses what each clause gives, and at the end one union
of what was deferred, if anything was. It selects a sample of the sensors of each feature, and
nothing else. -/
theorem build_search {s : Settings} {payload : Json} {r : Request} {q : SelectQuery}
    (hRead : Request.read payload = .ok r) (hNone : r.observables = [])
    (hKeys : ∀ entry ∈ r.filters, entry.1 ≠ "") (h : (s.build payload).outcome = .ok q) :
    ∃ p, r.readPattern = .ok p ∧
      q = {
        prefixes := s.prefixes
        projection := [sampleItem (bracketUrl p.sensor), featureVar]
        body := ⟨none, (s.sensorTriples p).elements ++ s.foundIn r ++ unionOf (s.deferredIn r)⟩
        modifiers := [.groupBy [bracketUrl p.sensor, featureVar]]
        distinct := false } := by
  obtain ⟨r', hRead', hBuilt⟩ := build_eq_ok_iff.mp h
  rw [hRead] at hRead'
  cases hRead'
  -- without observables the request is a location search
  obtain ⟨subgraphs, hSubs, ⟨hSome, -⟩ | ⟨-, hSearch⟩⟩ := buildRequest_eq_ok hBuilt
  · have hEach := subgraphs_ok hSubs
    rw [hNone] at hEach
    exact absurd (List.forall₂_nil_left_iff.mp hEach) hSome
  obtain ⟨p, draft, done, hPattern, hDraft, hDone, -, rfl⟩ := locationQuery_stages hSearch
  refine ⟨p, hPattern, ?_⟩
  -- the loop over the placed specs, each of which adds its own elements and alternatives
  have hStep (p : Progress) (placed : String × FilterSpec) (hPlaced : placed ∈ r.placedSpecs)
      (p' : Progress) (hSpec : (s.applyLocationSpec placed.1 p placed.2).outcome = .ok p') :
      p.Adds p' (placed.2.clauses.filterMap (s.found? placed.1 placed.2))
        ((placed.2.clauses.filterMap (s.deferred? placed.1 placed.2)).map Triple.branch) := by
    obtain ⟨entry, hEntry, hMem⟩ := List.mem_flatMap.mp hPlaced
    obtain ⟨spec, -, rfl⟩ := List.mem_map.mp hMem
    exact applyLocationSpec_exact (bracketUrl_ne_empty (hKeys entry hEntry)) hSpec
  have hAdds := foldlM_adds (a := fun placed : String × FilterSpec =>
    ⟨placed.2.clauses.filterMap (s.found? placed.1 placed.2),
      placed.2.clauses.filterMap (s.deferred? placed.1 placed.2)⟩) hStep hDone
  have hBody : (done.draft.union done.branches).group =
      ⟨none, (s.sensorTriples p).elements ++ s.foundIn r ++ unionOf (s.deferredIn r)⟩ :=
    calc (done.draft.union done.branches).group
      _ = ⟨(done.draft.union done.branches).group.origin,
            (done.draft.union done.branches).group.elements⟩ := Group.eq_mk _
      _ = ⟨none, (s.sensorTriples p).elements ++ s.foundIn r ++ unionOf (s.deferredIn r)⟩ := by
        rw [origin_union, hAdds.origin, hAdds.branches, List.nil_append, elements_union,
          hAdds.elements, sensorDraft_exact hDraft]
        rfl
  rw [hBody]

/-- A search by place with two entries, each on a geospatial function: the first has a place of its
own, and both have one that is an alternative. The first has a condition and a range besides. -/
def harborPayload : Json :=
  let place (operator : String) (lat : Int) : Json := .obj [
    ("selectedFilter", .obj [("text", .str "nearby")]), ("operator", .str operator),
    ("input", .obj [("radius", .int 500), ("center", .obj [("lat", .int lat), ("lng", .int 4)])])]
  let nearby (places : List Json) : Json := .obj [
    ("uri", .str "http://www.opengis.net/def/function/geosparql/nearby"), ("filters", .arr places)]
  .obj [
    ("sensorPattern", .obj [("sensorKey", .str "o"), ("s", .str "?place"), ("p", .str "x:at"),
      ("o", .str "?sensor")]),
    ("filters", .obj [
      ("?place", .arr [nearby [place "and" 51, place "union" 52],
        .obj [("uri", .str "x:depth"), ("predicateName", .str "?d"), ("filters", .arr [
          clauseOf "range" [("expression", .str "gt"), ("value", .int 3)],
          clauseOf "regex" [("value", .str "^N")]])]]),
      ("http://example.org/quay", .arr [nearby [place "Union" 53]])])]

/-- The query of that search holds the triples of the sensor, the place and the two conditions of
the first entry, and one union of the two alternatives. -/
theorem build_search_harbor :
    ∃ r q, Request.read harborPayload = .ok r ∧
      (Settings.standard.build harborPayload).outcome = .ok q ∧
      (Settings.standard.foundIn r).length = 3 ∧ (Settings.standard.deferredIn r).length = 2 ∧
      q.body.elements.length = 5 + 3 + 1 := by
  obtain ⟨r, hRead⟩ := exists_of_isOk
    (show (Request.read harborPayload).isOk = true by decide +kernel)
  obtain ⟨q, hBuild⟩ := exists_of_isOk
    (show (Settings.standard.build harborPayload).outcome.isOk = true by decide +kernel)
  have hRequest : ((Request.read harborPayload).toOption.map fun r =>
      (r.observables.isEmpty, r.filters.all (·.1 != ""), (Settings.standard.foundIn r).length,
        (Settings.standard.deferredIn r).length)) = some (true, true, 3, 2) := by decide +kernel
  rw [hRead, Except.toOption, Option.map_some, Option.some.injEq] at hRequest
  simp only [Prod.mk.injEq, List.isEmpty_iff, List.all_eq_true, bne_iff_ne] at hRequest
  obtain ⟨hNone, hKeys, hFound, hDeferred⟩ := hRequest
  obtain ⟨p, -, rfl⟩ := build_search hRead hNone hKeys hBuild
  refine ⟨r, _, hRead, hBuild, hFound, hDeferred, ?_⟩
  have hUnion : (unionOf (Settings.standard.deferredIn r)).length = 1 := by
    have hSome : Settings.standard.deferredIn r ≠ [] := by
      intro hNil
      rw [hNil] at hDeferred
      cases hDeferred
    rw [unionOf, if_neg hSome]
    rfl
  rw [List.length_append, List.length_append, hFound, hUnion]
  rfl

end SparqlSelect
