import SparqlSelect.Proofs.Compile.Specs

/-!
# The two readings of a spec

The spec of an observable and the spec of a search by place translate their clauses alike, but only
the first one merges bounds: it collects them and writes one expression after all conditions, while
a search by place writes each bound as a condition where it stands. So the two add the same
conditions only as long as there is nothing to merge.

* `filters_agree_iff` — what each of the two adds, and when this is the same.
* `filters_disagree_across` — an interval that wraps around, for which it is not.
-/

namespace SparqlSelect

section

variable {s : Settings} {spec : FilterSpec}

-- ---------------------------------------------------------------------------
-- Fragments are conditions and bounds
-- ---------------------------------------------------------------------------

/-- A clause gives its fragment as a condition or as a bound. -/
theorem fragment?_split (s : Settings) (spec : FilterSpec) (c : Clause) :
    s.fragment? spec c = s.condition? spec c ∧ s.bound? spec c = none ∨
      s.condition? spec c = none ∧
        s.fragment? spec c = (s.bound? spec c).map (·.fragment) := by
  unfold Settings.condition? Settings.bound?
  split
  · refine .inr ⟨rfl, ?_⟩
    cases s.fragment? spec c <;> rfl
  · exact .inl ⟨rfl, rfl⟩

/-- The fragments of some clauses are their conditions and their bounds, in another order. -/
theorem fragments_perm (s : Settings) (spec : FilterSpec) (clauses : List Clause) :
    (clauses.filterMap (s.fragment? spec)).Perm (clauses.filterMap (s.condition? spec) ++
      (clauses.filterMap (s.bound? spec)).map (·.fragment)) := by
  induction clauses with
  | nil => exact .refl _
  | cons c clauses ih =>
    -- each fragment is a bound's or a condition's, and stands on that side alone
    obtain ⟨hFragment, hBound⟩ | ⟨hCondition, hFragment⟩ := fragment?_split s spec c
    · rw [List.filterMap_cons, List.filterMap_cons, List.filterMap_cons, hFragment, hBound]
      cases s.condition? spec c with
      | none => exact ih
      | some e => exact ih.cons e
    · rw [List.filterMap_cons, List.filterMap_cons, List.filterMap_cons, hFragment, hCondition]
      cases s.bound? spec c with
      | none => exact ih
      | some b => exact (ih.cons b.fragment).trans List.perm_middle.symm

/-- Without bounds each fragment is a condition. -/
theorem fragments_of_unbounded (h : s.bounds spec = []) : s.fragments spec = s.conditions spec := by
  refine List.filterMap_congr fun c hc => ?_
  obtain ⟨hFragment, -⟩ | ⟨hCondition, hFragment⟩ := fragment?_split s spec c
  · exact hFragment
  · rw [hFragment, List.filterMap_eq_nil_iff.mp h c hc, hCondition]
    rfl

-- ---------------------------------------------------------------------------
-- A single bound
-- ---------------------------------------------------------------------------

/-- One bound is merged to its own fragment, unless it points in no direction. -/
theorem mergedExpression_singleton (b : Bound) :
    mergedExpression [b] = .ok (if b.isLower || b.isUpper then some b.fragment else none) := by
  cases hLower : b.isLower <;> cases hUpper : b.isUpper <;>
    simp [mergedExpression, hLower, hUpper, pairBounds, bind, Except.bind]

/-- There is nothing to merge: the spec has no bound, or its only bound points in a direction and
comes after all conditions. -/
def Settings.NothingToMerge (s : Settings) (spec : FilterSpec) : Prop :=
  s.bounds spec = [] ∨ ∃ b, s.bounds spec = [b] ∧ (b.isLower = true ∨ b.isUpper = true) ∧
    s.fragments spec = s.conditions spec ++ [b.fragment]

/-- Merging the bounds leaves the fragments as they are exactly if there is nothing to merge. -/
theorem merged_eq_fragments_iff {merged : Option String}
    (hMerged : mergedExpression (s.bounds spec) = .ok merged) :
    s.conditions spec ++ merged.toList = s.fragments spec ↔ s.NothingToMerge spec := by
  -- all fragments together are as many as the conditions and the bounds
  have hLength :
      (s.fragments spec).length = (s.conditions spec).length + (s.bounds spec).length := by
    have hPerm := (fragments_perm s spec spec.clauses).length_eq
    simpa [Settings.fragments, Settings.conditions, Settings.bounds] using hPerm
  constructor
  · intro hSame
    have hCount : merged.toList.length = (s.bounds spec).length := by
      have hSameLength := congrArg List.length hSame
      rw [List.length_append] at hSameLength
      omega
    rcases hBounds : s.bounds spec with _ | ⟨b, rest⟩
    · exact .inl hBounds
    · rw [hBounds] at hMerged hCount
      -- at most one expression comes out, so there is no second bound
      cases merged with
      | none => cases hCount
      | some e =>
        obtain rfl : rest = [] := List.eq_nil_of_length_eq_zero (Nat.succ.inj hCount).symm
        rw [mergedExpression_singleton] at hMerged
        split at hMerged
        · rename_i hDirected
          cases hMerged
          exact .inr ⟨b, hBounds, Bool.or_eq_true_iff.mp hDirected, hSame.symm⟩
        · cases hMerged
  · rintro (hNone | ⟨b, hBounds, hDirected, hLast⟩)
    · rw [hNone] at hMerged
      cases hMerged
      exact (List.append_nil _).trans (fragments_of_unbounded hNone).symm
    · rw [hBounds, mergedExpression_singleton,
        if_pos (Bool.or_eq_true_iff.mpr hDirected)] at hMerged
      cases hMerged
      exact hLast.symm

-- ---------------------------------------------------------------------------
-- The conditions of both readings
-- ---------------------------------------------------------------------------

/-- The conditions among some elements are added to those that are there. -/
theorem Progress.Adds.filters {p p' : Progress} {added : List Element} {alternatives : List Branch}
    (h : p.Adds p' added alternatives) :
    p'.draft.group.filters = p.draft.group.filters ++ (Group.mk none added).filters := by
  rw [Group.filters, h.elements, List.filterMap_append]
  rfl

theorem filters_map_filter (added : List String) :
    (Group.mk none (added.map .filter)).filters = added := by
  rw [Group.filters, List.filterMap_map]
  exact List.filterMap_some

/-- The triple of a spec comes before its conditions and is none. -/
theorem FilterSpec.Binds.filters {subject predicate : String} {own : List Element}
    (h : spec.Binds subject predicate own) (added : List String) :
    (Group.mk none (own ++ added.map .filter)).filters = added := by
  cases h with
  | unbound _ => exact filters_map_filter added
  | bound _ _ =>
    rw [FilterSpec.elementFor]
    split <;> exact filters_map_filter added

/-- **Two readings of a spec.** On an IRI that is no geospatial function, the spec of an observable
adds the conditions of its clauses and then one expression for all bounds; the same spec in a search
by place adds all fragments as they stand. The conditions are the same exactly if there is nothing
to merge. -/
theorem filters_agree_iff {o : Observable} {key entity : String} {p p' q q' : Progress}
    (hPlain : s.isGeoFunction spec.uri = .ok false)
    (hSpec : (s.applySpec o key p spec).outcome = .ok p')
    (hPlace : (s.applyLocationSpec entity q spec).outcome = .ok q') :
    ∃ merged, mergedExpression (s.bounds spec) = .ok merged ∧
      p'.draft.group.filters = p.draft.group.filters ++ (s.conditions spec ++ merged.toList) ∧
      q'.draft.group.filters = q.draft.group.filters ++ s.fragments spec ∧
      (s.conditions spec ++ merged.toList = s.fragments spec ↔ s.NothingToMerge spec) := by
  obtain ⟨predicate, own, merged, -, hOwn, hMerged, hAdds⟩ := applySpec_plain hPlain hSpec
  have hAdded := hAdds.filters
  rw [hOwn.filters] at hAdded
  have hPlaced := (applyLocationSpec_plain hPlain hPlace).filters
  rw [filters_map_filter] at hPlaced
  exact ⟨merged, hMerged, hAdded, hPlaced, merged_eq_fragments_iff hMerged⟩

end

-- ---------------------------------------------------------------------------
-- Bearings
-- ---------------------------------------------------------------------------

/-- A bound on a bearing. -/
def bearingBound (comparison value : String) : Clause where
  name := .str "range"
  value := .str value
  comparison
  center := .null
  radius := none
  points := []
  combination := "AND"

/-- A spec with bounds on the bearing of a station. -/
def bearingSpec (bounds : List Clause) : FilterSpec where
  uri := .str "x:bearing"
  var := some (.str "?d")
  isOptional := false
  isSelectable := false
  datatype := some (.str "xsd:float")
  clauses := bounds

/-- From 315 degrees on. -/
def bearingFrom : FilterSpec := bearingSpec [bearingBound ">" "315"]

/-- From 315 degrees on, past north, to 45 degrees. -/
def bearingAcross : FilterSpec := bearingSpec [bearingBound ">" "315", bearingBound "<" "45"]

/-- A station with what it observes. -/
def stationObservable : Observable where
  subject := "?s"
  predicate := "x:observes"
  object := "?o"
  limit := none
  sortKey := none
  sortDirection := .null

/-- A pattern that has just been started. -/
def Progress.start : Progress := ⟨.start none, []⟩

/-- What a spec comes to as one of the station, from the start. -/
def FilterSpec.asObservable (spec : FilterSpec) : Except Failure Progress :=
  (Settings.standard.applySpec stationObservable "x:observes" .start spec).outcome

/-- What a spec comes to in a search by place, from the start. -/
def FilterSpec.asPlace (spec : FilterSpec) : Except Failure Progress :=
  (Settings.standard.applyLocationSpec "?s" .start spec).outcome

/-- The conditions that some progress came to. -/
theorem exists_of_filters {x : Except Failure Progress} (filters : List String)
    (h : x.toOption.map (·.draft.group.filters) = some filters) :
    ∃ p, x = .ok p ∧ p.draft.group.filters = filters := by
  obtain ⟨p, hp, hFilters⟩ := Option.map_eq_some_iff.mp h
  exact ⟨p, toOption_eq_some_iff.mp hp, hFilters⟩

/-- A single bound is the same condition in both. -/
theorem filters_agree_from :
    ∃ p q merged, Settings.standard.isGeoFunction bearingFrom.uri = .ok false ∧
      bearingFrom.asObservable = .ok p ∧ bearingFrom.asPlace = .ok q ∧
      p.draft.group.filters = Settings.standard.conditions bearingFrom ++ Option.toList merged ∧
      q.draft.group.filters = Settings.standard.fragments bearingFrom ∧
      p.draft.group.filters = q.draft.group.filters := by
  obtain ⟨p, hp, hpFilters⟩ := exists_of_filters (x := bearingFrom.asObservable)
    ["?d > \"315\"^^xsd:float"] (by decide +kernel)
  obtain ⟨q, hq, hqFilters⟩ := exists_of_filters (x := bearingFrom.asPlace)
    ["?d > \"315\"^^xsd:float"] (by decide +kernel)
  obtain ⟨merged, -, hAdded, hPlaced, -⟩ := filters_agree_iff rfl hp hq
  exact ⟨p, q, merged, rfl, hp, hq, hAdded, hPlaced, hpFilters.trans hqFilters.symm⟩

/-- An interval that wraps around: as bounds of the station these are one condition, of which either
half is enough, and in a search by place they are two conditions, which no bearing satisfies. -/
theorem filters_disagree_across :
    ∃ p q, Settings.standard.isGeoFunction bearingAcross.uri = .ok false ∧
      bearingAcross.asObservable = .ok p ∧ bearingAcross.asPlace = .ok q ∧
      p.draft.group.filters = ["(?d > \"315\"^^xsd:float || ?d < \"45\"^^xsd:float)"] ∧
      q.draft.group.filters = ["?d > \"315\"^^xsd:float", "?d < \"45\"^^xsd:float"] := by
  obtain ⟨p, hp, hpFilters⟩ := exists_of_filters (x := bearingAcross.asObservable)
    ["(?d > \"315\"^^xsd:float || ?d < \"45\"^^xsd:float)"] (by decide +kernel)
  obtain ⟨q, hq, hqFilters⟩ := exists_of_filters (x := bearingAcross.asPlace)
    ["?d > \"315\"^^xsd:float", "?d < \"45\"^^xsd:float"] (by decide +kernel)
  exact ⟨p, q, rfl, hp, hq, hpFilters, hqFilters⟩

end SparqlSelect
