import SparqlSelect.Proofs.Compile.Discovery

/-!
# The elements of an observable's pattern

The pattern of an observable is known to the last element, as that of a search by place is. A clause
may go to four places: it gives a condition or a triple where it comes, a bound that waits for the
other bounds of its spec, a triple that waits for the union of all specs, or the request of a
function, which is no element at all. Which of these it is depends on the clause and on its spec
alone, so no clause gives two of them and none is lost on the way.

* `Settings.inline?`, `Settings.merged?`, `Settings.elementsOf`, `Settings.alternativesOf` — what a
  spec gives.
* `applySpec_exact` — what a spec adds.
* `subgraph_elements` — the whole pattern, and where each clause of it went.
-/

namespace SparqlSelect

-- ---------------------------------------------------------------------------
-- What specs give
-- ---------------------------------------------------------------------------

/-- The element that binds the variable of a spec, if it has one. -/
def FilterSpec.binding? (spec : FilterSpec) (subject : String) : Option Element :=
  spec.var.map fun x => spec.elementFor ⟨subject, spec.term, x.display⟩

namespace Settings

variable (s : Settings)

/-- The element that a clause of an observable's spec gives where it comes: any condition but a
bound, or on a geospatial function the triple of its place unless the clause is an alternative. -/
def inline? (subject : String) (spec : FilterSpec) (c : Clause) : Option Element :=
  if s.isGeospatial spec then s.found? subject spec c else (s.condition? spec c).map .filter

/-- The condition that the bounds of a spec are merged to. A geospatial function has no bounds. -/
def merged? (spec : FilterSpec) : Option Element :=
  if s.isGeospatial spec then none
  else (mergedExpression (s.bounds spec)).toOption.join.map .filter

/-- The elements that a spec gives where it comes: its triple, what its clauses give, and the
condition that its bounds are merged to. -/
def elementsOf (subject : String) (spec : FilterSpec) : List Element :=
  (spec.binding? subject).toList ++ spec.clauses.filterMap (s.inline? subject spec) ++
    (s.merged? spec).toList

/-- The triples that a spec gives for the union. -/
def alternativesOf (subject : String) (spec : FilterSpec) : List Triple :=
  spec.clauses.filterMap (s.deferred? subject spec)

/-- What a clause is translated to: for the variable of its spec, or on a geospatial function for no
variable. -/
def translated (spec : FilterSpec) (c : Clause) : Except Failure (Option String) :=
  (s.translate c (if s.isGeospatial spec then none else spec.var) spec.datatype).outcome

end Settings

section

variable {s : Settings} {spec : FilterSpec} {o : Observable} {key subject : String} {c : Clause}

/-- Away from geospatial functions nothing waits for the union. -/
theorem deferred?_of_plain (hPlain : s.isGeospatial spec = false) :
    s.deferred? subject spec c = none := by
  simp [Settings.deferred?, hPlain]

/-- A clause that is translated to nothing gives nothing. -/
theorem gives_nothing (hSelected : c.isSelected = true) (hNone : s.translated spec c = .ok none) :
    s.inline? subject spec c = none ∧ s.deferred? subject spec c = none := by
  cases hGeo : s.isGeospatial spec with
  | true =>
    have hPlace : s.place? spec c = none := by
      rw [Settings.translated, hGeo, if_pos rfl] at hNone
      simp [Settings.place?, hSelected, hNone, Except.toOption]
    simp [Settings.inline?, Settings.found?, Settings.deferred?, Settings.placeTriple?, hGeo,
      hPlace]
  | false =>
    rw [Settings.translated, hGeo] at hNone
    have hCondition := (condition?_bound?_of_none (fragment?_of_selected hSelected hNone)).1
    exact ⟨by simp [Settings.inline?, hGeo, hCondition], deferred?_of_plain hGeo⟩

/-- A fragment that is no bound goes to one place: it is a condition, or it becomes a triple that
stands where the clause comes or waits for the union. -/
theorem gives_one {fragment : String} (hSelected : c.isSelected = true)
    (hFound : s.translated spec c = .ok (some fragment))
    (hKind : FilterKind.of c.name ≠ .ok .range) :
    s.inline? subject spec c = some (.filter fragment) ∧ s.deferred? subject spec c = none ∨
    s.inline? subject spec c = some (.triple ⟨subject, spec.term, fragment⟩) ∧
      s.deferred? subject spec c = none ∨
    s.inline? subject spec c = none ∧
      s.deferred? subject spec c = some ⟨subject, spec.term, fragment⟩ := by
  cases hGeo : s.isGeospatial spec with
  -- a geospatial attribute gives a triple, in line or as an alternative; others give a filter
  | true =>
    have hTriple : s.placeTriple? subject spec c = some ⟨subject, spec.term, fragment⟩ := by
      rw [Settings.translated, hGeo, if_pos rfl] at hFound
      simp [Settings.placeTriple?, Settings.place?, hSelected, hFound, Except.toOption]
    cases hUnion : c.isUnion <;>
      simp [Settings.inline?, Settings.found?, Settings.deferred?, hGeo, hUnion, hTriple]
  | false =>
    rw [Settings.translated, hGeo] at hFound
    have hRange : (FilterKind.of c.name).toOption ≠ some .range :=
      fun hSome => hKind (toOption_eq_some_iff.mp hSome)
    have hCondition : s.condition? spec c = some fragment := by
      rw [Settings.condition?, if_neg hRange]
      exact fragment?_of_selected hSelected hFound
    exact .inl ⟨by simp [Settings.inline?, hGeo, hCondition], deferred?_of_plain hGeo⟩

-- ---------------------------------------------------------------------------
-- Specs
-- ---------------------------------------------------------------------------

/-- What a spec writes for its variable is known. -/
theorem FilterSpec.Binds.eq {predicate : String} {own : List Element}
    (h : spec.Binds subject predicate own) (hPredicate : termOf spec.uri = .ok predicate)
    (hSubject : subject ≠ "") : own = (spec.binding? subject).toList := by
  have hTerm : spec.term = predicate := by
    rw [FilterSpec.term, hPredicate]
    rfl
  cases h with
  | unbound hNone => simp [FilterSpec.binding?, hNone]
  | bound hVar hFor => simp [FilterSpec.binding?, hVar, hFor.eq hSubject, hTerm, Json.display]

/-- A spec adds what it gives. -/
theorem applySpec_exact {p p' : Progress} (hSubject : bracketUrl o.subject ≠ "")
    (h : (s.applySpec o key p spec).outcome = .ok p') :
    p.Adds p' (s.elementsOf (bracketUrl o.subject) spec)
      ((s.alternativesOf (bracketUrl o.subject) spec).map Triple.branch) := by
  obtain ⟨predicate, -, -, -, hPredicate, -⟩ := applySpec_eq_ok h
  obtain hIsGeo | hIsGeo := isGeoFunction_of_termOf (s := s) hPredicate
  · have hGeo : s.isGeospatial spec = true := isGeospatial_of_eq_ok hIsGeo
    obtain ⟨_, own, start, hTerm, hOwn, hStart, hPlaced⟩ := applySpec_geospatial hIsGeo h
    have hInline : s.inline? (bracketUrl o.subject) spec = s.found? (bracketUrl o.subject) spec :=
      funext fun c => if_pos hGeo
    -- no range is merged at a geospatial attribute, so the last element is missing
    have hMerged : s.merged? spec = none := if_pos hGeo
    rw [Settings.elementsOf, Settings.alternativesOf, hInline, hMerged, Option.toList_none,
      List.append_nil]
    simpa [hOwn.eq hTerm hSubject] using hStart.trans (hPlaced.exact hSubject hGeo)
  · have hPlain : s.isGeospatial spec = false := isGeospatial_of_eq_ok hIsGeo
    obtain ⟨_, own, merged, hTerm, hOwn, hMerge, hAdds⟩ := applySpec_plain hIsGeo h
    have hInline : s.inline? (bracketUrl o.subject) spec =
        fun c => (s.condition? spec c).map .filter :=
      funext fun c => by simp [Settings.inline?, hPlain]
    have hMerged : s.merged? spec = merged.map .filter := by
      simp [Settings.merged?, hPlain, hMerge, Except.toOption]
    -- a plain attribute has no alternatives
    have hDeferred : s.alternativesOf (bracketUrl o.subject) spec = [] :=
      List.filterMap_eq_nil_iff.mpr fun c _ => deferred?_of_plain hPlain
    rw [hDeferred, Settings.elementsOf, hInline, hMerged, ← hOwn.eq hTerm hSubject]
    simpa [Settings.conditions, List.map_filterMap, Option.toList_map] using hAdds

/-- A chosen clause that was gone through is translated. -/
theorem translated_of_applyClause {p p' : SpecProgress}
    (h : (s.applyClause spec o key p c).outcome = .ok p') (hSelected : c.isSelected = true) :
    ∃ found, s.translated spec c = .ok found := by
  -- a selected clause is placed, asks for a function, or constrains
  obtain ⟨hOther, -⟩ | ⟨-, ⟨hIsGeo, done, hPlace, -⟩ | ⟨hIsGeo, kind, hKind, hCases⟩⟩ :=
    applyClause_eq_ok h
  · rw [hSelected] at hOther
    cases hOther
  · obtain ⟨found, hFound, -⟩ := placeClause_eq_ok hPlace
    exact ⟨found, by rw [Settings.translated, isGeospatial_of_eq_ok hIsGeo]; exact hFound⟩
  have hVar : (if s.isGeospatial spec then none else spec.var) = spec.var := by
    rw [isGeospatial_of_eq_ok hIsGeo]
    rfl
  rw [Settings.translated, hVar]
  obtain ⟨⟨category, hCategory⟩, -⟩ | ⟨-, hConstrain⟩ := hCases
  · exact ⟨none, translate_function hKind (by rw [hCategory]; rfl)⟩
  · obtain ⟨found, hFound, -⟩ := constrain_eq_ok hConstrain
    exact ⟨found, hFound⟩

/-- The terms, the bounds and the clauses of a spec that was gone through are what they are read
as. -/
theorem parts_of_applySpec {p p' : Progress} (h : (s.applySpec o key p spec).outcome = .ok p') :
    termOf spec.uri = .ok spec.term ∧
      (s.isGeospatial spec = false → ∃ merged, mergedExpression (s.bounds spec) = .ok merged ∧
        s.merged? spec = merged.map .filter) ∧
      ∀ c ∈ spec.clauses, c.isSelected = true → ∃ found, s.translated spec c = .ok found := by
  obtain ⟨predicate, _, _, done, hPredicate, -, -, hClauses, -⟩ := applySpec_eq_ok h
  refine ⟨?_, fun hPlain => ?_, ?_⟩
  · rw [FilterSpec.term, hPredicate]
    rfl
  · obtain hIsGeo | hIsGeo := isGeoFunction_of_termOf (s := s) hPredicate
    · rw [isGeospatial_of_eq_ok hIsGeo] at hPlain
      cases hPlain
    · obtain ⟨-, -, merged, -, -, hMerged, -⟩ := applySpec_plain hIsGeo h
      exact ⟨merged, hMerged, by simp [Settings.merged?, hPlain, hMerged, Except.toOption]⟩
  · exact Traced.foldlM_each (fun c _ _ _ hStep => translated_of_applyClause hStep) hClauses

-- ---------------------------------------------------------------------------
-- Whole patterns
-- ---------------------------------------------------------------------------

/-- **The pattern of an observable, element by element.** It is the observable's triple, then for
each spec of its key in order the spec's triple, what its clauses give and the condition that its
bounds are merged to, and at the end one union of all triples that wait for it, if there are any.
Each chosen clause is translated, and a fragment that is no bound is found in exactly one of these
places. -/
theorem subgraph_elements {r : Request} {sub : Subgraph}
    (h : (s.subgraph r o).outcome = .ok sub) :
    sub.group = ⟨some (o.key r.keys),
      .triple ⟨bracketUrl o.subject, bracketUrl o.predicate, bracketUrl o.object⟩ ::
      (r.specsOf (o.key r.keys)).flatMap (s.elementsOf (bracketUrl o.subject)) ++
      unionOf ((r.specsOf (o.key r.keys)).flatMap (s.alternativesOf (bracketUrl o.subject)))⟩ ∧
    ∀ spec ∈ r.specsOf (o.key r.keys),
      termOf spec.uri = .ok spec.term ∧
      (s.isGeospatial spec = false → ∃ merged, mergedExpression (s.bounds spec) = .ok merged ∧
        s.merged? spec = merged.map .filter) ∧
      ∀ c ∈ spec.clauses, c.isSelected = true → ∃ found, s.translated spec c = .ok found ∧
        (found = none → s.inline? (bracketUrl o.subject) spec c = none ∧
          s.deferred? (bracketUrl o.subject) spec c = none) ∧
        ∀ fragment ∈ found, FilterKind.of c.name ≠ .ok .range →
          s.inline? (bracketUrl o.subject) spec c = some (.filter fragment) ∧
            s.deferred? (bracketUrl o.subject) spec c = none ∨
          s.inline? (bracketUrl o.subject) spec c =
              some (.triple ⟨bracketUrl o.subject, spec.term, fragment⟩) ∧
            s.deferred? (bracketUrl o.subject) spec c = none ∨
          s.inline? (bracketUrl o.subject) spec c = none ∧
            s.deferred? (bracketUrl o.subject) spec c =
              some ⟨bracketUrl o.subject, spec.term, fragment⟩ := by
  simp only [Settings.subgraph, Traced.outcome_bind, Traced.outcome_lift, bind_eq_ok_iff] at h
  obtain ⟨-, -, draft, hDraft, done, hDone, modifiers, -, -, -, h⟩ := h
  cases h
  obtain ⟨anchor, hAnchor, rfl⟩ := Draft.triple_eq_ok_iff.mp hDraft
  obtain ⟨-, -, -, hFits⟩ := checkTriple_eq_ok_iff.mp hAnchor
  obtain rfl := checkTriple_str hAnchor
  have hSubject : bracketUrl o.subject ≠ "" := Kind.ne_empty_of_subject hFits.subject
  refine ⟨?_, fun spec hSpec => ?_⟩
  · -- every spec adds its elements behind those before it, and all alternatives join at the end
    have hAdds := foldlM_adds
      (a := fun spec => ⟨s.elementsOf (bracketUrl o.subject) spec,
        s.alternativesOf (bracketUrl o.subject) spec⟩)
      (fun _ _ _ _ hStep => applySpec_exact hSubject hStep) hDone
    dsimp only
    rw [Group.eq_mk (Draft.group _), origin_union, hAdds.origin, hAdds.branches, List.nil_append,
      elements_union, hAdds.elements]
    rfl
  · obtain ⟨hTerm, hMerged, hClauses⟩ :=
      Traced.foldlM_each (fun spec _ _ _ hStep => parts_of_applySpec hStep) hDone spec hSpec
    refine ⟨hTerm, hMerged, fun c hc hSelected => ?_⟩
    obtain ⟨found, hFound⟩ := hClauses c hc hSelected
    refine ⟨found, hFound, ?_, ?_⟩
    · rintro rfl
      exact gives_nothing hSelected hFound
    · rintro fragment rfl hKind
      exact gives_one hSelected hFound hKind

/-- An observable whose specs give something of every sort: an optional one with a condition, two
bounds and a function, one on a geospatial function with a place of its own and one that is an
alternative, and another one with a second alternative. -/
def shorePayload : Json :=
  let place (operator : String) (lat : Int) : Json := .obj [
    ("selectedFilter", .obj [("text", .str "nearby")]), ("operator", .str operator),
    ("input", .obj [("radius", .int 500), ("center", .obj [("lat", .int lat), ("lng", .int 4)])])]
  let nearby (places : List Json) : Json := .obj [
    ("uri", .str "http://www.opengis.net/def/function/geosparql/nearby"), ("filters", .arr places)]
  .obj [
    ("observables", .arr [
      .obj [("subject", .str "?st"), ("predicate", .str "x:observes"), ("object", .str "?o")]]),
    ("filters", .obj [("x:observes", .arr [
      .obj [("uri", .str "x:depth"), ("predicateName", .str "?d"), ("isOptional", .bool true),
        ("filters", .arr [
          clauseOf "range" [("expression", .str "gt"), ("value", .int 3)],
          clauseOf "regex" [("value", .str "^N")],
          clauseOf "function" [("value", .str "avg")],
          clauseOf "range" [("expression", .str "lt"), ("value", .int 9)]])],
      nearby [place "union" 51, place "and" 52],
      nearby [place "Union" 53]])])]

/-- Its pattern holds the triple of the observable, an optional triple, a condition, the merged
bounds and one place, and at the end one union of the two alternatives. -/
theorem subgraph_elements_shore :
    ∃ r o sub, Request.read shorePayload = .ok r ∧ r.observables = [o] ∧
      (Settings.standard.subgraph r o).outcome = .ok sub ∧
      sub.group.elements.length = 1 + 4 + 1 := by
  have hRun : ((Request.read shorePayload).toOption.bind fun r => r.observables.head?.bind fun o =>
      (Settings.standard.subgraph r o).outcome.toOption.map fun _ => (r.observables.length,
        ((r.specsOf (o.key r.keys)).flatMap
          (Settings.standard.elementsOf (bracketUrl o.subject))).length,
        ((r.specsOf (o.key r.keys)).flatMap
          (Settings.standard.alternativesOf (bracketUrl o.subject))).length)) =
      some (1, 4, 2) := by decide +kernel
  simp only [Option.bind_eq_some_iff, Option.map_eq_some_iff, toOption_eq_some_iff,
    Prod.mk.injEq] at hRun
  obtain ⟨r, hRead, o, hHead, sub, hSub, hOne, hElements, hAlternatives⟩ := hRun
  have hOnly : r.observables = [o] := by
    obtain ⟨o', hO'⟩ := List.length_eq_one_iff.mp hOne
    rw [hO'] at hHead ⊢
    cases hHead
    rfl
  refine ⟨r, o, sub, hRead, hOnly, hSub, ?_⟩
  rw [(subgraph_elements hSub).1, unionOf, if_neg (List.ne_nil_of_length_pos (by omega)),
    List.length_append, List.length_cons, hElements]
  rfl

end

end SparqlSelect
