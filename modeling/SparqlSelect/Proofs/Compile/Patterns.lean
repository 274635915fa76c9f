import SparqlSelect.Proofs.Compile.Build
import SparqlSelect.Proofs.Compile.Specs

/-!
# What stands in a pattern

The pattern of an observable is its own triple, then what its specs contribute one after another,
and at the end one union of all alternatives. The pattern of a search by place is the triples of the
sensor and then the same, except that its specs write no triples of their own and do not merge
bounds.

So whatever stands in a pattern was written by a spec, and which clause gave it is known.

* `FilterSpec.Writes`, `FilterSpec.Finds` — what a spec may write in either case.
* `foldlM_grows` — a loop whose steps only add.
* `subgraph_eq_ok` — the pattern of an observable.
* `locationQuery_eq_ok` — a search by place.
-/

namespace SparqlSelect

/-- The fragments of places that the clauses of a spec give, in their order. -/
def Settings.places (s : Settings) (spec : FilterSpec) : List String :=
  spec.clauses.filterMap (s.place? spec)

/-- A triple gives one of the places of a spec as the value of its function. -/
def FilterSpec.Locates (s : Settings) (spec : FilterSpec) (subject : String) (t : Triple) : Prop :=
  ∃ fragment ∈ s.places spec, spec.Places subject fragment t

/-- What the spec of an observable may write: the triple for its variable, the triple of a place, a
condition, or the merged expression of its bounds. -/
inductive FilterSpec.Writes (s : Settings) (spec : FilterSpec) (subject : String) : Element → Prop
  | own {predicate : String} {elements : List Element} {e : Element} :
    spec.Binds subject predicate elements → e ∈ elements → Writes s spec subject e
  | place {t : Triple} : spec.Locates s subject t → Writes s spec subject (.triple t)
  | condition {e : String} : e ∈ s.conditions spec → Writes s spec subject (.filter e)
  | bounds {e : String} : mergedExpression (s.bounds spec) = .ok (some e) →
    Writes s spec subject (.filter e)

/-- What the spec of a search by place may write: the triple of a place, or a condition. -/
inductive FilterSpec.Finds (s : Settings) (spec : FilterSpec) (subject : String) : Element → Prop
  | place {t : Triple} : spec.Locates s subject t → Finds s spec subject (.triple t)
  | condition {e : String} : e ∈ s.fragments spec → Finds s spec subject (.filter e)

/-- What an item adds to a pattern: elements, and alternatives that are kept for the union. -/
structure Addition where
  elements : List Element
  alternatives : List Triple

/-- The addition of the spec of an observable, the triple for its variable among it. -/
structure FilterSpec.Contributes (s : Settings) (spec : FilterSpec) (subject : String)
    (a : Addition) : Prop where
  own : ∃ predicate own, spec.Binds subject predicate own ∧ own ⊆ a.elements
  elements : ∀ e ∈ a.elements, spec.Writes s subject e
  alternatives : ∀ t ∈ a.alternatives, spec.Locates s subject t

/-- The addition of the spec of a search by place. -/
structure FilterSpec.Discovers (s : Settings) (spec : FilterSpec) (subject : String)
    (a : Addition) : Prop where
  elements : ∀ e ∈ a.elements, spec.Finds s subject e
  alternatives : ∀ t ∈ a.alternatives, spec.Locates s subject t

-- ---------------------------------------------------------------------------
-- One spec
-- ---------------------------------------------------------------------------

section

variable {s : Settings} {spec : FilterSpec} {subject : String} {p p' : Progress}

/-- The clauses of a spec on a geospatial function add triples of its places. -/
theorem Progress.Placed.adds (h : p.Placed s spec subject spec.clauses p') :
    ∃ triples alternatives : List Triple,
      p.Adds p' (triples.map .triple) (alternatives.map Triple.branch) ∧
      (∀ t ∈ triples, spec.Locates s subject t) ∧
      ∀ t ∈ alternatives, spec.Locates s subject t := by
  obtain ⟨triples, alternatives, hAdds, hTriples, hAlternatives⟩ := h
  refine ⟨triples, alternatives, hAdds, fun t ht => ?_, fun t ht => ?_⟩
  · obtain ⟨fragment, hFragment, hPlaces⟩ := exists_of_forall₂_right hTriples ht
    exact ⟨fragment, (List.filter_sublist.filterMap _).subset hFragment, hPlaces⟩
  · obtain ⟨fragment, hFragment, hPlaces⟩ := exists_of_forall₂_right hAlternatives ht
    exact ⟨fragment, (List.filter_sublist.filterMap _).subset hFragment, hPlaces⟩

/-- A spec adds its own triple, and nothing but what it may write. -/
theorem applySpec_adds {o : Observable} {key : String}
    (h : (s.applySpec o key p spec).outcome = .ok p') :
    ∃ a, spec.Contributes s (bracketUrl o.subject) a ∧
      p.Adds p' a.elements (a.alternatives.map Triple.branch) := by
  obtain ⟨predicate, -, -, -, hPredicate, -⟩ := applySpec_eq_ok h
  -- a geospatial attribute adds its own triples and alternatives, another one conditions and bounds
  obtain hGeo | hPlain := isGeoFunction_of_termOf (s := s) hPredicate
  · obtain ⟨predicate, own, start, -, hOwn, hStart, hPlaced⟩ := applySpec_geospatial hGeo h
    obtain ⟨triples, alternatives, hAdds, hTriples, hAlternatives⟩ := hPlaced.adds
    refine ⟨⟨own ++ triples.map .triple, alternatives⟩, ⟨⟨predicate, own, hOwn,
      List.subset_append_left ..⟩, ?_, hAlternatives⟩, hStart.trans hAdds⟩
    rw [List.forall_mem_append, List.forall_mem_map]
    exact ⟨fun e he => .own hOwn he, fun t ht => .place (hTriples t ht)⟩
  · obtain ⟨predicate, own, merged, -, hOwn, hMerged, hAdds⟩ := applySpec_plain hPlain h
    refine ⟨⟨_, []⟩, ⟨⟨predicate, own, hOwn, List.subset_append_left ..⟩, ?_, by simp⟩, hAdds⟩
    rw [List.forall_mem_append, List.forall_mem_map, List.forall_mem_append]
    refine ⟨fun e he => .own hOwn he, fun e he => .condition he, fun e he => ?_⟩
    rw [Option.mem_toList] at he
    exact .bounds (he ▸ hMerged)

/-- A spec of a search by place adds nothing but what it may write. -/
theorem applyLocationSpec_adds (h : (s.applyLocationSpec subject p spec).outcome = .ok p') :
    ∃ a, spec.Discovers s subject a ∧
      p.Adds p' a.elements (a.alternatives.map Triple.branch) := by
  obtain ⟨isGeo, hIsGeo, -⟩ := applyLocationSpec_eq_ok_iff.mp h
  cases isGeo with
  | true =>
    obtain ⟨triples, alternatives, hAdds, hTriples, hAlternatives⟩ :=
      (applyLocationSpec_geospatial hIsGeo h).adds
    refine ⟨⟨triples.map .triple, alternatives⟩, ⟨?_, hAlternatives⟩, hAdds⟩
    rw [List.forall_mem_map]
    exact fun t ht => .place (hTriples t ht)
  | false =>
    refine ⟨⟨_, []⟩, ⟨?_, by simp⟩, applyLocationSpec_plain hIsGeo h⟩
    rw [List.forall_mem_map]
    exact fun e he => .condition he

end

-- ---------------------------------------------------------------------------
-- All specs
-- ---------------------------------------------------------------------------

/-- A loop whose steps add something each adds all of it, in the order of its items. -/
theorem foldlM_grows {α : Type} {step : Progress → α → Traced Progress} {A : α → Addition → Prop}
    {items : List α} {start p : Progress}
    (hStep : ∀ p, ∀ item ∈ items, ∀ p', (step p item).outcome = .ok p' →
      ∃ a, A item a ∧ p.Adds p' a.elements (a.alternatives.map Triple.branch))
    (h : (items.foldlM step start).outcome = .ok p) :
    ∃ additions, List.Forall₂ A items additions ∧
      start.Adds p (additions.flatMap (·.elements))
        ((additions.flatMap (·.alternatives)).map Triple.branch) := by
  refine Traced.foldlM_along (I := fun done p => ∃ additions, List.Forall₂ A done additions ∧
    start.Adds p (additions.flatMap (·.elements))
      ((additions.flatMap (·.alternatives)).map Triple.branch)) ?_ ⟨[], .nil, .refl start⟩ h
  rintro done item hMem p p' ⟨additions, hDone, hAdds⟩ hItem
  obtain ⟨a, ha, hNext⟩ := hStep p item hMem p' hItem
  refine ⟨additions ++ [a], List.rel_append hDone (.cons ha .nil), ?_⟩
  simpa using hAdds.trans hNext

/-- The union of some alternatives, if there are any. -/
def unionOf (alternatives : List Triple) : List Element :=
  if alternatives = [] then [] else [.union (alternatives.map Triple.branch)]

theorem elements_union (d : Draft) (alternatives : List Triple) :
    (d.union (alternatives.map Triple.branch)).group.elements =
      d.group.elements ++ unionOf alternatives := by
  cases alternatives with
  | nil => exact (List.append_nil _).symm
  | cons t rest => rfl

/-- What stands in the pattern of an observable. -/
structure Observable.HasPattern (s : Settings) (specs : List FilterSpec) (o : Observable)
    (anchor : Triple) (additions : List Addition) (elements : List Element) : Prop where
  anchored : anchor.IsFor (bracketUrl o.subject) (bracketUrl o.predicate) (bracketUrl o.object)
  contributed : List.Forall₂ (fun spec a => spec.Contributes s (bracketUrl o.subject) a) specs
    additions
  shape : elements = .triple anchor :: additions.flatMap (·.elements) ++
    unionOf (additions.flatMap (·.alternatives))

/-- **The pattern of an observable.** It is the triple of the observable, what its specs contribute,
and the union of their alternatives. -/
theorem subgraph_eq_ok {s : Settings} {r : Request} {o : Observable} {sub : Subgraph}
    (h : (s.subgraph r o).outcome = .ok sub) :
    ∃ anchor additions,
      o.HasPattern s (r.specsOf (o.key r.keys)) anchor additions sub.group.elements := by
  simp only [Settings.subgraph, Traced.outcome_bind, Traced.outcome_lift, bind_eq_ok_iff] at h
  obtain ⟨-, -, draft, hDraft, done, hDone, modifiers, -, -, -, h⟩ := h
  cases h
  obtain ⟨anchor, hAnchor, rfl⟩ := Draft.triple_eq_ok_iff.mp hDraft
  obtain ⟨additions, hAdditions, hAdds⟩ := foldlM_grows
    (A := fun spec => spec.Contributes s (bracketUrl o.subject))
    (fun _ _ _ _ hStep => applySpec_adds hStep) hDone
  refine ⟨anchor, additions, Triple.isFor_of_check hAnchor, hAdditions, ?_⟩
  dsimp only
  rw [hAdds.branches, List.nil_append, elements_union, hAdds.elements]
  rfl

-- ---------------------------------------------------------------------------
-- A search by place
-- ---------------------------------------------------------------------------

/-- The triples that say what a sensor, its feature and its position are. -/
structure SensorTriples where
  pattern : Triple
  type : Triple
  feature : Triple
  latitude : Triple
  longitude : Triple

/-- The triples as the elements of a group; a sensor need not have a feature. -/
def SensorTriples.elements (t : SensorTriples) : List Element :=
  [.triple t.pattern, .triple t.type, .optional ⟨none, [.triple t.feature]⟩, .triple t.latitude,
    .triple t.longitude]

/-- The triples were checked and written for the terms of a pattern and the IRIs of the settings. -/
structure SensorTriples.AreFor (s : Settings) (p : SensorPattern) (t : SensorTriples) : Prop where
  pattern : t.pattern.IsFor (bracketUrl p.subject) (bracketUrl p.predicate) (bracketUrl p.object)
  type : t.type.IsFor (bracketUrl p.sensor) "a" ("<" ++ s.sensorClass.display ++ ">")
  feature : t.feature.IsFor (bracketUrl p.sensor) ("<" ++ s.featureOfInterest.display ++ ">")
    featureVar
  latitude : t.latitude.IsFor (bracketUrl p.subject) ("<" ++ s.latitude.display ++ ">") "?Latitude"
  longitude : t.longitude.IsFor (bracketUrl p.subject) ("<" ++ s.longitude.display ++ ">")
    "?Longitude"

theorem sensorDraft_eq_ok {s : Settings} {p : SensorPattern} {d : Draft}
    (h : s.sensorDraft p = .ok d) :
    ∃ t : SensorTriples, t.AreFor s p ∧ d.group.elements = t.elements := by
  simp only [Settings.sensorDraft, bind_eq_ok_iff, Draft.triple_eq_ok_iff,
    Draft.optional_eq_ok_iff] at h
  obtain ⟨_, ⟨pattern, hPattern, rfl⟩, _, ⟨type, hType, rfl⟩, _, ⟨feature, hFeature, rfl⟩, _,
    ⟨latitude, hLatitude, rfl⟩, longitude, hLongitude, rfl⟩ := h
  exact ⟨⟨pattern, type, feature, latitude, longitude⟩, {
    pattern := Triple.isFor_of_check hPattern
    type := Triple.isFor_of_check hType
    feature := Triple.isFor_of_check hFeature
    latitude := Triple.isFor_of_check hLatitude
    longitude := Triple.isFor_of_check hLongitude }, rfl⟩

/-- The stages of a search by place: the triples of the sensor, the specs of all entities one after
another, and the union of what they kept. -/
theorem locationQuery_stages {s : Settings} {r : Request} {q : SelectQuery}
    (h : (s.locationQuery r).outcome = .ok q) :
    ∃ p draft done, r.readPattern = .ok p ∧ s.sensorDraft p = .ok draft ∧
      (r.placedSpecs.foldlM (fun p (placed : String × FilterSpec) =>
        s.applyLocationSpec placed.1 p placed.2) (⟨draft, []⟩ : Progress)).outcome = .ok done ∧
      Kind.acceptsAny Kind.forGrouping (bracketUrl p.sensor) = true ∧
      q = ⟨s.prefixes, [sampleItem (bracketUrl p.sensor), featureVar],
        (done.draft.union done.branches).group, [.groupBy [bracketUrl p.sensor, featureVar]],
        false⟩ := by
  simp only [Settings.locationQuery, Traced.outcome_bind, Traced.outcome_lift,
    bind_eq_ok_iff] at h
  obtain ⟨p, hPattern, draft, hDraft, done, hDone, sample, hSample, terms, hTerms, -, -, h⟩ := h
  cases h
  obtain ⟨rfl, -⟩ := Kind.checkText_eq_ok_iff.mp hSample
  rw [Traced.outcome_mapM] at hTerms
  obtain ⟨rfl, hGrouped⟩ := mapM_checkText_eq_ok hTerms
  exact ⟨p, draft, done, hPattern, hDraft, hDone, hGrouped _ List.mem_cons_self, rfl⟩

/-- **A search by place.** Its pattern is the triples of the sensor, what the specs of all entities
contribute, and the union of their alternatives; it selects a sample of the sensors of each feature.
-/
theorem locationQuery_eq_ok {s : Settings} {r : Request} {q : SelectQuery}
    (h : (s.locationQuery r).outcome = .ok q) :
    ∃ p t additions, r.readPattern = .ok p ∧ SensorTriples.AreFor s p t ∧
      List.Forall₂ (fun placed a => FilterSpec.Discovers s placed.2 placed.1 a) r.placedSpecs
        additions ∧
      Kind.acceptsAny Kind.forGrouping (bracketUrl p.sensor) = true ∧
      q.projection = [sampleItem (bracketUrl p.sensor), featureVar] ∧
      q.body.elements = t.elements ++ additions.flatMap (·.elements) ++
        unionOf (additions.flatMap (·.alternatives)) ∧
      q.modifiers = [.groupBy [bracketUrl p.sensor, featureVar]] := by
  obtain ⟨p, draft, done, hPattern, hDraft, hDone, hGrouped, rfl⟩ := locationQuery_stages h
  obtain ⟨t, hTriples, hElements⟩ := sensorDraft_eq_ok hDraft
  have hStep (p : Progress) (placed : String × FilterSpec) (_ : placed ∈ r.placedSpecs)
      (p' : Progress) (hPlaced : (s.applyLocationSpec placed.1 p placed.2).outcome = .ok p') :
      ∃ a, FilterSpec.Discovers s placed.2 placed.1 a ∧
        p.Adds p' a.elements (a.alternatives.map Triple.branch) := applyLocationSpec_adds hPlaced
  obtain ⟨additions, hAdditions, hAdds⟩ := foldlM_grows hStep hDone
  refine ⟨p, t, additions, hPattern, hTriples, hAdditions, hGrouped, rfl, ?_, rfl⟩
  dsimp only
  rw [hAdds.branches, List.nil_append, elements_union, hAdds.elements, hElements]

end SparqlSelect
