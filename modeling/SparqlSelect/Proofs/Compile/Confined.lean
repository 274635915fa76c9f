import SparqlSelect.Proofs.Compile.Aggregates
import SparqlSelect.Proofs.Compile.Fragments
import SparqlSelect.Proofs.Compile.Notes
import SparqlSelect.Proofs.Compile.Patterns
import SparqlSelect.Proofs.Filter.Sealed
import SparqlSelect.Proofs.Fragment.Circle
import SparqlSelect.Proofs.Fragment.Kinds
import SparqlSelect.Proofs.Query.Braces

/-!
# Requests that bring no curly braces

Most texts of a request are checked against a pattern that has no braces, or they go into a literal.
What is left are the names that are written as they are into an expression, the coordinates of a
circle, the unit of a circle that is given as an object, and the name of an aggregate, in whose
brackets anything may stand. A request is confined if these bring no braces. Then no line of a
pattern that it gives brings any once its literals are masked.

* `Request.Confined` — the requests, and what is asked of their parts.
* `Triple.contained` — the line of a triple that was checked.
* `subgraph_contained`, `aggregates_contained`, `locationQuery_contained` — whole patterns.
-/

namespace SparqlSelect

open Pattern

-- ---------------------------------------------------------------------------
-- Requests
-- ---------------------------------------------------------------------------

/-- The unit of a circle may be anything between angle brackets. A term is confined if it is no
circle or brings no braces. -/
def TermConfined (term : String) : Prop :=
  Kind.circle.accepts term.toList = true → Braceless term

instance (term : String) : Decidable (TermConfined term) :=
  inferInstanceAs (Decidable (_ → _))

/-- The comparison of a clause is inert, and so is its circle if it has one. -/
structure Clause.Confined (c : Clause) : Prop where
  comparison : Inert c.comparison
  circle : ∀ e ∈ (circleOf .standard c).toOption.join, Inert e

instance (c : Clause) : Decidable c.Confined :=
  decidable_of_iff (_ ∧ _) ⟨fun h => ⟨h.1, h.2⟩, fun h => ⟨h.1, h.2⟩⟩

/-- The variable and the datatype of a spec are inert, and the clauses that were chosen are
confined. -/
structure FilterSpec.Confined (spec : FilterSpec) : Prop where
  var : ∀ x ∈ spec.var, Inert x.display
  datatype : ∀ d ∈ spec.datatype, Inert d.display
  clauses : ∀ c ∈ spec.clauses, c.isSelected = true → c.Confined

instance (spec : FilterSpec) : Decidable spec.Confined :=
  decidable_of_iff (_ ∧ _ ∧ _) ⟨fun h => ⟨h.1, h.2.1, h.2.2⟩, fun h => ⟨h.1, h.2, h.3⟩⟩

/-- All specs of a request are confined and so are the objects that it gives, and the aggregates
that it asks for have no braces in their names. -/
structure Request.Confined (r : Request) : Prop where
  specs : ∀ entry ∈ r.filters, ∀ spec ∈ entry.2, spec.Confined
  aggregates : ∀ c ∈ Settings.standard.aggregateCalls r, Braceless c.function
  objects : ∀ o ∈ r.observables, TermConfined o.object
  sensor : ∀ p ∈ r.readPattern.toOption, TermConfined p.object

instance (r : Request) : Decidable r.Confined :=
  decidable_of_iff (_ ∧ _ ∧ _ ∧ _)
    ⟨fun h => ⟨h.1, h.2.1, h.2.2.1, h.2.2.2⟩, fun h => ⟨h.1, h.2, h.3, h.4⟩⟩

/-- The specs of a key are confined if those of the request are. -/
theorem Request.Confined.specsOf {r : Request} (h : r.Confined) {key : String} {spec : FilterSpec}
    (hSpec : spec ∈ r.specsOf key) : spec.Confined := by
  unfold Request.specsOf at hSpec
  cases hEntry : r.filters.lookup key with
  | none =>
    rw [hEntry] at hSpec
    cases hSpec
  | some specs =>
    rw [hEntry] at hSpec
    obtain ⟨before, after, hFilters, -⟩ := List.lookup_eq_some_iff.mp hEntry
    exact h.specs (key, specs) (by simp [hFilters]) spec hSpec

/-- So are the specs that are gone through in a search by place. -/
theorem Request.Confined.placed {r : Request} (h : r.Confined) {placed : String × FilterSpec}
    (hPlaced : placed ∈ r.placedSpecs) : placed.2.Confined := by
  obtain ⟨entry, hEntry, hPlaced⟩ := List.mem_flatMap.mp hPlaced
  obtain ⟨spec, hSpec, rfl⟩ := List.mem_map.mp hPlaced
  exact h.specs entry hEntry spec hSpec

-- ---------------------------------------------------------------------------
-- Terms
-- ---------------------------------------------------------------------------

section

variable {s : String}

/-- A text that nothing reacts to is a confined term. -/
theorem Inert.termConfined (h : Inert s) : TermConfined s := fun _ => h.braceless

/-- A circle starts with a bracket. -/
theorem termConfined_of_cons {c : Char} {rest : List Char} (hc : Token.circle.following c = [])
    (h : s.toList = c :: rest) : TermConfined s := by
  intro hCircle
  rw [h] at hCircle
  exact absurd (accepts_iff.mp hCircle) (not_matches_cons hc rest)

/-- A confined term stays confined between angle brackets. -/
theorem TermConfined.bracketUrl (h : TermConfined s) : TermConfined (bracketUrl s) := by
  unfold SparqlSelect.bracketUrl
  split
  · have hShape : ("<" ++ s ++ ">").toList = '<' :: (s.toList ++ ['>']) := by simp
    exact termConfined_of_cons (by decide) hShape
  · exact h

/-- The object of a triple is sealed, with the space before it, or it has no braces at all. -/
theorem sealed_or_braceless_of_object (h : Kind.acceptsAny Kind.forObject s = true)
    (hConfined : TermConfined s) : Sealed (' ' :: s.toList) ∨ Braceless s := by
  have hSeals {p : Pattern} (hText : Matches p s.toList) (hp : p.seals = true) :
      Sealed (' ' :: s.toList) := .inert rfl (sealed_of_matches hText hp)
  -- every object but a circle is told by its pattern
  rcases Kind.acceptsAny_forObject_iff.mp h with
    hVar | hIri | hName | hNative | hCircle | hPolygon
  · exact .inl (hSeals hVar (by decide))
  · exact .inl (hSeals hIri (by decide))
  · exact .inl (hSeals hName (by decide))
  · rcases matches_alt_iff.mp hNative with hPlain | hText
    · exact .inl (hSeals hPlain (by decide))
    · obtain ⟨t, tail, hText, hTail, hSplit⟩ := matches_seq_iff.mp hText
      rw [hSplit]
      exact .inl ((sealed_of_text hText).append (sealed_of_matches hTail (by decide)))
  · exact .inr (hConfined (accepts_iff.mpr hCircle))
  · exact .inr (braceless_of_matches hPolygon (by decide))

end

/-- The line of a triple that was checked brings no braces if its object is confined. -/
theorem Triple.contained {t : Triple} (h : t.Fits) (hObject : TermConfined t.object) :
    Contained t.text.toList := by
  have hSubject := Kind.matches_of_subject h.subject
  have hPredicate := Kind.matches_of_predicate h.predicate
  -- an object with quotes is sealed, and so is what stands before it; one without has no brace
  rcases sealed_or_braceless_of_object h.object hObject with hSealed | hBraceless
  · have hShape : t.text.toList = t.subject.toList ++ ' ' :: (t.predicate.toList ++
        (' ' :: t.object.toList) ++ " .".toList) := by
      simp [Triple.text]
    rw [hShape]
    refine contained_of_sealed ((sealed_of_matches hSubject (by decide)).append (.inert rfl ?_))
    exact ((sealed_of_matches hPredicate (by decide)).append hSealed).append
      (sealed_of_inert (by decide))
  · have hFirst : Braceless t.subject := braceless_of_matches hSubject (by decide)
    have hSecond : Braceless t.predicate := braceless_of_matches hPredicate (by decide)
    have hSpace : Braceless " " := by decide
    have hLine := (((hFirst.append hSpace).append hSecond).append hSpace).append hBraceless
    exact (hLine.append (by decide)).contained

/-- A triple keeps its braces to itself if its object does: its subject and predicate have none. -/
theorem Triple.IsFor.contained {t : Triple} {subject predicate object : String}
    (h : t.IsFor subject predicate object) (hObject : TermConfined object) :
    SparqlSelect.Contained t.text.toList :=
  Triple.contained h.fits (h.object ▸ hObject)

-- ---------------------------------------------------------------------------
-- Specs
-- ---------------------------------------------------------------------------

/-- A polygon is given as a quoted text. -/
theorem exists_of_polygonOf {c : Clause} {e : String} (h : polygonOf c = .ok (some e)) :
    ∃ rest, e.toList = '"' :: rest := by
  obtain ⟨corners, -, h⟩ := bind_eq_ok_iff.mp h
  split at h
  · cases h
  · cases h
    exact ⟨_, by simp only [String.toList_append]; rfl⟩

section

variable {spec : FilterSpec} {subject e : String}

/-- The fragment of a clause is sealed, unless it is a polygon. -/
theorem fragment_sealed {c : Clause} (hSpec : spec.Confined) (hClause : c ∈ spec.clauses)
    (h : Settings.standard.fragment? spec c = some e) :
    Sealed e.toList ∨ FilterKind.of c.name = .ok .within ∧ polygonOf c = .ok (some e) := by
  obtain ⟨hSelected, hTranslate⟩ := Settings.fragment?_eq_some_iff.mp h
  have hConfined := hSpec.clauses c hClause hSelected
  obtain ⟨kind, hKind, ⟨-, hCircle⟩ | ⟨rfl, hPolygon⟩ | ⟨x, hVar, hExpression⟩⟩ :=
    translate_eq_some hTranslate
  · exact .inl (hConfined.circle e (join_toOption_eq_some_iff.mpr hCircle)).sealed
  · exact .inr ⟨hKind, hPolygon⟩
  · refine .inl (expression_sealed (by decide) (hSpec.var x hVar) hConfined.comparison ?_
      hExpression)
    cases hDatatype : spec.datatype with
    | none => decide
    | some d => exact hSpec.datatype d hDatatype

/-- A condition that was checked brings no braces. -/
theorem condition_contained (hSpec : spec.Confined) (h : e ∈ Settings.standard.fragments spec)
    (hAccepts : Kind.acceptsAny Kind.forFilter e = true) : (Element.filter e).Contained := by
  obtain ⟨c, hClause, hFragment⟩ := List.mem_filterMap.mp h
  obtain hSealed | ⟨-, hPolygon⟩ := fragment_sealed hSpec hClause hFragment
  · exact filter_contained hSealed
  · obtain ⟨rest, hQuote⟩ := exists_of_polygonOf hPolygon
    rw [not_condition_polygon hQuote] at hAccepts
    cases hAccepts

/-- What the bounds of a spec are merged to brings no braces. -/
theorem bounds_contained (hSpec : spec.Confined)
    (h : mergedExpression (Settings.standard.bounds spec) = .ok (some e)) :
    (Element.filter e).Contained := by
  refine filter_contained (mergedExpression_sealed (fun b hb => ?_) h)
  obtain ⟨c, hClause, hBound⟩ := List.mem_filterMap.mp hb
  obtain ⟨hRange, hFragment⟩ := Settings.bound?_eq_some hBound
  refine (fragment_sealed hSpec hClause hFragment).resolve_right ?_
  rintro ⟨hWithin, -⟩
  rw [hWithin] at hRange
  cases hRange

/-- The fragment of a place is confined. -/
theorem place_confined (hSpec : spec.Confined) (h : e ∈ Settings.standard.places spec) :
    TermConfined e := by
  obtain ⟨c, hClause, hPlace⟩ := List.mem_filterMap.mp h
  obtain ⟨hSelected, hTranslate⟩ := Settings.place?_eq_some_iff.mp hPlace
  obtain ⟨kind, -, ⟨-, hCircle⟩ | ⟨-, hPolygon⟩ | ⟨x, hVar, -⟩⟩ := translate_eq_some hTranslate
  · exact ((hSpec.clauses c hClause hSelected).circle e
      (join_toOption_eq_some_iff.mpr hCircle)).termConfined
  · obtain ⟨rest, hQuote⟩ := exists_of_polygonOf hPolygon
    exact termConfined_of_cons (by decide) hQuote
  · cases hVar

/-- So does a triple that a geospatial clause gives. -/
theorem FilterSpec.Locates.contained {t : Triple} (hSpec : spec.Confined)
    (h : spec.Locates .standard subject t) : Contained t.text.toList := by
  obtain ⟨fragment, hFragment, function, -, hFor⟩ := h
  exact hFor.contained (place_confined hSpec hFragment)

/-- What a confined spec of an observable writes brings no braces. -/
theorem FilterSpec.Writes.contained {e : Element} (h : spec.Writes .standard subject e)
    (hSpec : spec.Confined) (hFits : e.Fits) : e.Everywhere Element.Contained := by
  cases h with
  -- the attribute's own element is a triple, inside an optional group or not
  | own hBinds he =>
    cases hBinds with
    | unbound _ => cases he
    | bound hVar hFor =>
      have hTriple := hFor.contained (hSpec.var _ hVar).termConfined
      rw [List.mem_singleton.mp he, elementFor]
      split
      · simpa [Element.Contained] using hTriple
      · simpa [Element.Contained] using hTriple
  | place hLocates => exact Element.everywhere_triple.mpr (hLocates.contained hSpec)
  | condition he =>
    obtain ⟨c, hClause, hCondition⟩ := List.mem_filterMap.mp he
    have hFragment := List.mem_filterMap.mpr ⟨c, hClause, Settings.condition?_eq_some hCondition⟩
    exact Element.everywhere_filter.mpr (condition_contained hSpec hFragment hFits)
  | bounds hMerged => exact Element.everywhere_filter.mpr (bounds_contained hSpec hMerged)

/-- What a confined spec of a search by place writes brings no braces. -/
theorem FilterSpec.Finds.contained {e : Element} (h : spec.Finds .standard subject e)
    (hSpec : spec.Confined) (hFits : e.Fits) : e.Everywhere Element.Contained := by
  cases h with
  | place hLocates => exact Element.everywhere_triple.mpr (hLocates.contained hSpec)
  | condition he => exact Element.everywhere_filter.mpr (condition_contained hSpec he hFits)

end

/-- So does a union of such triples. -/
theorem unionOf_contained {alternatives : List Triple}
    (h : ∀ t ∈ alternatives, Contained t.text.toList) :
    ∀ e ∈ unionOf alternatives, e.Everywhere Element.Contained := by
  intro e he
  unfold unionOf at he
  split at he
  · cases he
  · rw [List.mem_singleton.mp he]
    simpa [Triple.branch, Element.Contained] using h

-- ---------------------------------------------------------------------------
-- Patterns
-- ---------------------------------------------------------------------------

section

variable {r : Request}

/-- The pattern of an observable of a confined request brings no braces. -/
theorem subgraph_contained {o : Observable} {sub : Subgraph} (hConfined : r.Confined)
    (ho : o ∈ r.observables) (h : (Settings.standard.subgraph r o).outcome = .ok sub) :
    sub.group.Everywhere Element.Contained := by
  obtain ⟨anchor, additions, hAnchor, hAdditions, hShape⟩ := subgraph_eq_ok h
  have hFits : ∀ e ∈ sub.group.elements, e.Fits := fun e he =>
    ((Group.everywhere_iff.mp (subgraph_drafted h).2.1) e he).1.fits
  rw [hShape] at hFits
  rw [Group.everywhere_iff, hShape, List.forall_mem_append, List.forall_mem_cons]
  -- the anchor, what the specs add to it, and the alternatives at the end
  refine ⟨⟨?_, fun e he => ?_⟩, unionOf_contained fun t ht => ?_⟩
  · exact Element.everywhere_triple.mpr (hAnchor.contained (hConfined.objects o ho).bracketUrl)
  · obtain ⟨a, ha, hMem⟩ := List.mem_flatMap.mp he
    obtain ⟨spec, hSpec, hContributes⟩ := exists_of_forall₂_right hAdditions ha
    exact (hContributes.elements e hMem).contained (hConfined.specsOf hSpec)
      (hFits e (List.mem_append_left _ (List.mem_cons_of_mem _ he)))
  · obtain ⟨a, ha, ht⟩ := List.mem_flatMap.mp ht
    obtain ⟨spec, hSpec, hContributes⟩ := exists_of_forall₂_right hAdditions ha
    exact (hContributes.alternatives t ht).contained (hConfined.specsOf hSpec)

/-- The pattern of the aggregates of a confined request brings no braces. -/
theorem aggregates_contained {groups : List Group} {selected : List FunctionCall}
    {a : Aggregation} (hConfined : r.Confined)
    (h : Aggregation.Computes (Settings.standard.aggregateCalls r) groups selected a) :
    a.query.body.Everywhere Element.Contained := by
  refine h.everywhere (fun _ => trivial) (fun _ => trivial) fun g hg => ?_
  obtain ⟨entry, hEntry, first, more, hCalls, hBranch⟩ := exists_of_forall₂_right h.branches hg
  obtain ⟨anchor, triples, hBranched, hElements⟩ := Aggregation.branch_eq_ok hBranch
  -- what a branch is written with comes from the calls of its key
  have hAsked : ∀ c ∈ entry.2, TermConfined c.object ∧ TermConfined c.var := by
    intro c hc
    have hCall := FunctionCall.mem_flatMap_grouped.mp (List.mem_flatMap.mpr ⟨entry, hEntry, hc⟩)
    obtain ⟨o, ho, spec, hSpec, x, clause, hVar, -, -, rfl⟩ := exists_of_call hCall
    exact ⟨hConfined.objects o ho, ((hConfined.specsOf hSpec).var x hVar).termConfined⟩
  rw [Group.everywhere_iff, hElements, List.forall_mem_map, List.forall_mem_cons]
  refine ⟨?_, fun t ht => ?_⟩
  · have hFirst := (hAsked first (by rw [hCalls]; exact List.mem_cons_self)).1
    exact Element.everywhere_triple.mpr (hBranched.anchored.contained hFirst.bracketUrl)
  · obtain ⟨pair, hPair, hFor⟩ := exists_of_forall₂_right hBranched.bound ht
    obtain ⟨c, hc, rfl⟩ := List.mem_map.mp (List.mem_eraseDups.mp hPair)
    exact Element.everywhere_triple.mpr (hFor.contained (hAsked c hc).2)

/-- The pattern of a confined search by place brings no braces. -/
theorem locationQuery_contained {q : SelectQuery} (hConfined : r.Confined)
    (h : (Settings.standard.locationQuery r).outcome = .ok q) :
    q.body.Everywhere Element.Contained := by
  have hFits : ∀ e ∈ q.body.elements, e.Fits := fun e he =>
    ((Group.everywhere_iff.mp (locationQuery_drafted h)) e he).1.fits
  obtain ⟨p, t, additions, hPattern, hTriples, hAdditions, -, -, hShape, -⟩ := locationQuery_eq_ok h
  have hObject : TermConfined p.object :=
    hConfined.sensor p (by rw [hPattern]; rfl)
  rw [hShape] at hFits
  rw [Group.everywhere_iff, hShape, List.forall_mem_append, List.forall_mem_append]
  refine ⟨⟨?_, fun e he => ?_⟩, unionOf_contained fun t ht => ?_⟩
  · simp only [SensorTriples.elements, List.forall_mem_cons, Element.everywhere_triple,
      Element.everywhere_optional, Group.everywhere_mk]
    -- the sensor's own triples, the ones with a fixed object decided on their texts
    refine ⟨hTriples.pattern.contained hObject.bracketUrl, hTriples.type.contained ?_,
      ⟨trivial, hTriples.feature.contained ?_, by simp⟩, hTriples.latitude.contained ?_,
      hTriples.longitude.contained ?_, by simp⟩
    all_goals decide +kernel
  · obtain ⟨a, ha, hMem⟩ := List.mem_flatMap.mp he
    obtain ⟨placed, hPlaced, hDiscovers⟩ := exists_of_forall₂_right hAdditions ha
    exact (hDiscovers.elements e hMem).contained (hConfined.placed hPlaced)
      (hFits e (List.mem_append_left _ (List.mem_append_right _ he)))
  · obtain ⟨a, ha, ht⟩ := List.mem_flatMap.mp ht
    obtain ⟨placed, hPlaced, hDiscovers⟩ := exists_of_forall₂_right hAdditions ha
    exact (hDiscovers.alternatives t ht).contained (hConfined.placed hPlaced)

end

end SparqlSelect
