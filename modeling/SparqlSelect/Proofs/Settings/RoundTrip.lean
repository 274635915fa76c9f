import SparqlSelect.Compile.Query
import SparqlSelect.Proofs.Settings.Tables

/-!
# Settings written and read again

A settings object lists the prefixes that it adds; when settings are written, all their prefixes
are. So the standard prefixes are given again when that object is read, and they come first, in the
order that they have already: no prefix is moved, and none is set back to its standard IRI. The
functions are a set. They are written in order, which is all that reading them again may change.

While a request is compiled, the set of functions is only asked for its members. So settings that
differ in the order of the functions compile every request alike.

* `Settings.build_withFunctions` — settings that differ in the order of the functions.
* `Settings.givenPrefixes`, `Settings.givenFunctions`, `Settings.read_eq_ok` — what is made of a
  settings object.
* `Settings.Declares` — the IRI of a name.
* `Settings.pairsOf_pairList`, `Settings.read_written` — prefixes as a list of pairs, and settings
  read as they were written.
* `Settings.read_write_read` — reading, writing and reading again.
-/

namespace SparqlSelect

namespace Settings

-- ---------------------------------------------------------------------------
-- The order of the functions
-- ---------------------------------------------------------------------------

/-- Settings with another list of functions. -/
def withFunctions (s : Settings) (functions : List Json) : Settings :=
  { s with geoFunctions := functions }

section

-- these do not ask for the functions at all
variable (s : Settings) (functions : List Json)

theorem defaultDatatype_withFunctions :
    (s.withFunctions functions).defaultDatatype = s.defaultDatatype := rfl

theorem prefixes_withFunctions : (s.withFunctions functions).prefixes = s.prefixes := rfl

/-- Listing the functions in another order changes nothing else of the settings; this and the lemmas
after it follow each step of the compiler. -/
theorem nesting_withFunctions : (s.withFunctions functions).nesting = s.nesting := rfl

theorem circleOf_withFunctions : circleOf (s.withFunctions functions) = circleOf s := rfl

theorem expression_withFunctions : (s.withFunctions functions).expression = s.expression := by
  funext kind c var datatype
  cases kind <;> rfl

theorem translate_withFunctions : (s.withFunctions functions).translate = s.translate := by
  funext c var datatype
  rw [translate, translate, expression_withFunctions, circleOf_withFunctions,
    defaultDatatype_withFunctions]

theorem placeClause_withFunctions : (s.withFunctions functions).placeClause = s.placeClause := by
  funext spec subject p c
  rw [placeClause, placeClause, translate_withFunctions]

theorem constrain_withFunctions : (s.withFunctions functions).constrain = s.constrain := by
  funext spec kind p c
  rw [constrain, constrain, translate_withFunctions, nesting_withFunctions]

theorem applyLocationClause_withFunctions :
    (s.withFunctions functions).applyLocationClause = s.applyLocationClause := by
  funext spec isGeo entity p c
  rw [applyLocationClause, applyLocationClause, translate_withFunctions, placeClause_withFunctions,
    nesting_withFunctions]

theorem sensorDraft_withFunctions : (s.withFunctions functions).sensorDraft = s.sensorDraft := rfl

theorem observableQuery_withFunctions :
    (s.withFunctions functions).observableQuery = s.observableQuery := rfl

end

section

-- these ask whether an IRI is among the functions, by way of `isGeoFunction`
variable {s : Settings} {functions : List Json}

/-- Whether a function is a geospatial one depends on the names listed, not on their order. -/
theorem isGeoFunction_withFunctions (h : functions.Perm s.geoFunctions) :
    (s.withFunctions functions).isGeoFunction = s.isGeoFunction := by
  funext uri
  simp only [isGeoFunction, withFunctions, h.any_eq]

theorem applyClause_withFunctions (h : functions.Perm s.geoFunctions) :
    (s.withFunctions functions).applyClause = s.applyClause := by
  funext spec o key p c
  rw [applyClause, applyClause, isGeoFunction_withFunctions h, placeClause_withFunctions,
    constrain_withFunctions]

theorem subgraph_withFunctions (h : functions.Perm s.geoFunctions) :
    (s.withFunctions functions).subgraph = s.subgraph := by
  have hSpec : (s.withFunctions functions).applySpec = s.applySpec := by
    funext o key p spec
    rw [applySpec, applySpec, applyClause_withFunctions h, nesting_withFunctions]
  funext r o
  rw [subgraph, subgraph, hSpec]

/-- A location search is the same for every order of the geospatial functions. -/
theorem locationQuery_withFunctions (h : functions.Perm s.geoFunctions) :
    (s.withFunctions functions).locationQuery = s.locationQuery := by
  have hSpec : (s.withFunctions functions).applyLocationSpec = s.applyLocationSpec := by
    funext entity p spec
    rw [applyLocationSpec, applyLocationSpec, isGeoFunction_withFunctions h,
      applyLocationClause_withFunctions]
  funext r
  rw [locationQuery, locationQuery, hSpec, sensorDraft_withFunctions, prefixes_withFunctions]

/-- The order of the functions does not matter to any query. -/
theorem build_withFunctions (h : functions.Perm s.geoFunctions) (payload : Json) :
    (s.withFunctions functions).build payload = s.build payload := by
  have hRequest : (s.withFunctions functions).buildRequest = s.buildRequest := by
    funext r
    rw [buildRequest, buildRequest, subgraph_withFunctions h, locationQuery_withFunctions h,
      observableQuery_withFunctions]
  rw [build, build, hRequest]

end

-- ---------------------------------------------------------------------------
-- Reading
-- ---------------------------------------------------------------------------

/-- The entries of a settings object. -/
def entriesOf (d : Json) : List (String × Json) := d.toMembers.toOption.getD []

/-- The prefixes that a settings object gives, in its order. -/
def givenPrefixes (d : Json) : List (Json × Json) :=
  (pairsOf (Json.member "prefixes" (entriesOf d))).toOption.getD []

/-- The functions that a settings object gives. -/
def givenFunctions (d : Json) : List Json :=
  (Json.member "geo_function_iris" (entriesOf d)).toItems.toOption.getD []

/-- A name is declared with an IRI. The name may be there in another spelling that is equal to it.
-/
def Declares (s : Settings) (name iri : Json) : Prop :=
  ∃ n, (n = name ∨ n.equal name = true) ∧ (n, iri) ∈ s.prefixes

/-- The standard prefixes are declared once each. -/
theorem distinct_standardPrefixes : Distinct standardPrefixes := by
  unfold Distinct
  decide

section

variable {d value item name iri : Json} {s : Settings} {pairs : List (Json × Json)}

/-- What is read as a prefix pair: a list of two whose first can be a key. -/
theorem pairOf_eq_ok_iff : pairOf item = .ok (name, iri) ↔
    item.toItems = .ok [name, iri] ∧ name.isScalar = true := by
  constructor
  · intro h
    obtain ⟨items, hItems, h⟩ := bind_eq_ok_iff.mp h
    split at h
    · obtain ⟨n, hn, hPair⟩ := bind_eq_ok_iff.mp h
      obtain ⟨hScalar, rfl⟩ := scalar_eq_ok_iff.mp hn
      obtain ⟨rfl, rfl⟩ := Prod.mk.inj (Except.ok.inj hPair)
      exact ⟨hItems, hScalar⟩
    · cases h
  · rintro ⟨hItems, hScalar⟩
    rw [pairOf, hItems]
    change (scalar name >>= _) = _
    rw [scalar_eq_ok_iff.mpr ⟨hScalar, rfl⟩]
    rfl

/-- The keys of an object are texts, which can be keys. -/
theorem isScalar_of_members (members : List (String × Json)) :
    ∀ n ∈ names (members.map fun (name, value) => (.str name, value)), n.isScalar = true := by
  rw [names, List.map_map]
  exact List.forall_mem_map.mpr fun p _ => rfl

/-- Every name in a table that was read can be a key. -/
theorem isScalar_of_pairsOf (h : pairsOf value = .ok pairs) :
    ∀ n ∈ names pairs, n.isScalar = true := by
  have hItems (h : (value.toItems >>= fun items => items.mapM pairOf) = .ok pairs) :
      ∀ n ∈ names pairs, n.isScalar = true := by
    obtain ⟨items, -, h⟩ := bind_eq_ok_iff.mp h
    refine List.forall_mem_map.mpr fun (name, iri) hp => ?_
    obtain ⟨item, -, hItem⟩ := exists_of_forall₂_right (mapM_eq_ok_iff.mp h) hp
    exact (pairOf_eq_ok_iff.mp hItem).2
  cases value with
  | obj members =>
    cases h
    exact isScalar_of_members members
  | _ => exact hItems h

/-- A value that does not count as given lists nothing. -/
theorem pairsOf_of_not_isSet (h : value.isSet = false) : (pairsOf value).toOption.getD [] = [] := by
  cases value with
  | null => rfl
  | bool b => rfl
  | int n => rfl
  | float x => rfl
  | str s =>
    obtain rfl : s = "" := by simpa [Json.isSet] using h
    rfl
  | arr items =>
    obtain rfl : items = [] := by simpa [Json.isSet] using h
    rfl
  | obj members =>
    obtain rfl : members = [] := by simpa [Json.isSet] using h
    rfl

/-- The prefixes that are given are added to the standard ones. -/
theorem read_eq_ok (h : read d = .ok s) :
    (∀ n ∈ names (givenPrefixes d), n.isScalar = true) ∧
    ∃ functions, geoFunctionsIn (entriesOf d) = .ok functions ∧
      s = { standard.withEntries (entriesOf d) with
        prefixes := merge standardPrefixes (givenPrefixes d), geoFunctions := functions } := by
  obtain ⟨entries, hEntries, h⟩ := bind_eq_ok_iff.mp h
  obtain rfl : entriesOf d = entries := by rw [entriesOf, hEntries]; rfl
  dsimp only at h
  -- the prefixes are given, and then merged, or they are not
  split at h
  · obtain ⟨added, hAdded, h⟩ := bind_eq_ok_iff.mp h
    obtain ⟨functions, hFunctions, h⟩ := bind_eq_ok_iff.mp h
    have hGiven : givenPrefixes d = added := by rw [givenPrefixes, hAdded]; rfl
    rw [hGiven]
    exact ⟨isScalar_of_pairsOf hAdded, functions, hFunctions, (Except.ok.inj h).symm⟩
  · rename_i hNot
    rw [ok_bind] at h
    obtain ⟨functions, hFunctions, h⟩ := bind_eq_ok_iff.mp h
    have hGiven : givenPrefixes d = [] := pairsOf_of_not_isSet (eq_false_of_ne_true hNot)
    rw [hGiven]
    exact ⟨nofun, functions, hFunctions, (Except.ok.inj h).symm⟩

/-- Functions that are texts make a set of distinct texts, as the standard ones do. -/
theorem geoFunctionsIn_texts {functions : List Json} (hTexts : ∀ v ∈ givenFunctions d, IsText v)
    (h : geoFunctionsIn (entriesOf d) = .ok functions) :
    (∀ v ∈ functions, IsText v) ∧ functions.Pairwise fun v w => v.equal w = false := by
  unfold geoFunctionsIn at h
  split at h
  · rename_i value hValue
    obtain ⟨items, hItems, -, rfl⟩ := setOf_eq_ok_iff.mp h
    have hGiven : givenFunctions d = items := by
      rw [givenFunctions, Json.member, hValue, Option.getD_some, hItems]
      rfl
    rw [hGiven] at hTexts
    exact ⟨forall_distinctMembers hTexts nofun, pairwise_distinctMembers .nil⟩
  · cases h
    exact ⟨by simp [standard, IsText], by decide⟩

end

-- ---------------------------------------------------------------------------
-- Writing
-- ---------------------------------------------------------------------------

/-- A table as a list of pairs. -/
def pairList (table : List (Json × Json)) : Json :=
  .arr (table.map fun (name, iri) => .arr [name, iri])

/-- The entries of the settings object of settings, the functions as they are listed. -/
def writtenEntries (s : Settings) (functions : List Json) : List (String × Json) :=
  [("prefixes", pairList s.prefixes), ("geo_function_iris", .arr functions),
    ("distance_unit_iri", s.distanceUnit), ("sensor_class_iri", s.sensorClass),
    ("feature_of_interest_iri", s.featureOfInterest), ("latitude_iri", s.latitude),
    ("longitude_iri", s.longitude), ("datatype_prefix", s.datatypePrefix),
    ("default_datatype", s.defaultDatatype)]

section

variable {s : Settings} {pairs : List (Json × Json)} {functions : List Json}

/-- A table written as a list of pairs is read back as it was. -/
theorem pairsOf_pairList (h : ∀ n ∈ names pairs, n.isScalar = true) :
    pairsOf (pairList pairs) = .ok pairs := by
  refine mapM_eq_ok_iff.mpr ?_
  rw [List.forall₂_map_left_iff, List.forall₂_same]
  exact fun p hp => pairOf_eq_ok_iff.mpr ⟨rfl, h _ (List.mem_map_of_mem hp)⟩

/-- The written settings, once the functions are sorted. -/
theorem write_of_sorted (h : sorted s.geoFunctions = .ok functions) :
    s.write = .ok (.obj (s.writtenEntries functions)) := by
  rw [write, otherEntries, h]
  rfl

/-- Settings that begin with the names of the standard prefixes are read as they were written. -/
theorem read_written (hDistinct : Distinct s.prefixes)
    (hNames : names standardPrefixes <+: names s.prefixes)
    (hScalar : ∀ n ∈ names s.prefixes, n.isScalar = true)
    (hSet : setOf (.arr functions) = .ok functions) (hNesting : s.nesting = standard.nesting) :
    read (.obj (s.writtenEntries functions)) = .ok (s.withFunctions functions) := by
  have hGiven : (pairList s.prefixes).isSet = true := by
    cases hPrefixes : s.prefixes with
    | nil =>
      rw [hPrefixes] at hNames
      cases List.prefix_nil.mp hNames
    | cons p rest => rfl
  have hFunctions : geoFunctionsIn (s.writtenEntries functions) = .ok functions := hSet
  have hMember : Json.member "prefixes" (s.writtenEntries functions) = pairList s.prefixes := rfl
  -- all prefixes are given, so each standard one gets back the IRI that it has in `s`
  have hMerge : merge standardPrefixes s.prefixes = s.prefixes :=
    merge_of_names hDistinct hNames (by decide)
  simp only [read, Json.toMembers, ok_bind, hMember, hGiven, if_true, pairsOf_pairList hScalar,
    hFunctions, hMerge, withFunctions, hNesting]
  rfl

end

-- ---------------------------------------------------------------------------
-- Reading, writing and reading again
-- ---------------------------------------------------------------------------

/-- **Settings that are read, written and read again.** If the functions that a settings object
gives are texts, the settings that are read from it can be written, and reading that object gives
the same settings: the same prefixes in the same order, the same functions as a set, and the same
value for everything else. Each prefix of the settings object has the IRI that is given for it, the
last one if its name comes more than once, and a standard prefix that is not given keeps its IRI.
Every request is compiled to the same query, with the same messages, and to the same text. -/
theorem read_write_read {d : Json} {s : Settings} (hTexts : ∀ v ∈ givenFunctions d, IsText v)
    (h : read d = .ok s) :
    ∃ written functions, s.write = .ok written ∧
      read written = .ok (s.withFunctions functions) ∧ functions.Perm s.geoFunctions ∧
      (∀ payload, (s.withFunctions functions).build payload = s.build payload ∧
        (s.withFunctions functions).compile payload = s.compile payload) ∧
      Distinct s.prefixes ∧
      (∀ before name iri after, givenPrefixes d = before ++ (name, iri) :: after →
        (∀ p ∈ after, p.1.equal name = false) → s.Declares name iri) ∧
      ∀ p ∈ standardPrefixes, (∀ q ∈ givenPrefixes d, p.1.equal q.1 = false) →
        s.Declares p.1 p.2 := by
  obtain ⟨hScalar, given, hGiven, hRead⟩ := read_eq_ok h
  obtain ⟨hAll, hDistinct⟩ := geoFunctionsIn_texts hTexts hGiven
  have hPrefixes : s.prefixes = merge standardPrefixes (givenPrefixes d) := by rw [hRead]
  have hFunctions : s.geoFunctions = given := by rw [hRead]
  -- the functions are written in order, which is a permutation without repetitions
  obtain ⟨functions, hSorted, hPerm⟩ := exists_sorted hAll
  have hSet : setOf (.arr functions) = .ok functions :=
    setOf_arr (fun v hv => hAll v (hPerm.mem_iff.mp hv))
      ((hPerm.pairwise_iff fun {v w} hvw => by rw [Json.equal_comm]; exact hvw).mpr hDistinct)
  have hNames : Distinct s.prefixes := by
    rw [hPrefixes]
    exact distinct_standardPrefixes.merge _
  rw [← hFunctions] at hSorted hPerm
  have hBuild := build_withFunctions hPerm
  refine ⟨_, functions, write_of_sorted hSorted, read_written hNames ?_ ?_ hSet
    (by rw [hRead]; rfl), hPerm, fun payload => ⟨hBuild payload, ?_⟩, hNames, ?_, ?_⟩
  · rw [hPrefixes]
    exact names_prefix_merge _ _
  · rw [hPrefixes]
    exact forall_names_merge (by decide) hScalar
  · rw [compile, compile, hBuild]
  · intro before name iri after hSplit hLast
    rw [Declares, hPrefixes]
    exact exists_mem_merge hSplit hLast
  · intro p hp hNone
    rw [Declares, hPrefixes]
    exact ⟨p.1, .inl rfl, mem_merge_of_mem hp hNone⟩

/-- A settings object that replaces a standard prefix and lists a function twice. -/
def replacing : Json :=
  .obj [("prefixes", .obj [("sosa", .str "http://www.w3.org/ns/sosa/"),
      ("geo", .str "http://example.org/geo#")]),
    ("geo_function_iris", .arr [.str "http://example.org/near", .str "http://example.org/inside",
      .str "http://example.org/near"])]

/-- A standard prefix is replaced and another one kept, also when the settings are read again. -/
theorem read_write_read_replacing :
    ∃ s written functions, read replacing = .ok s ∧ s.write = .ok written ∧
      read written = .ok (s.withFunctions functions) ∧ functions.Perm s.geoFunctions ∧
      s.Declares (.str "geo") (.str "http://example.org/geo#") ∧
      s.Declares (.str "xsd") (.str xsd) := by
  obtain ⟨s, hRead⟩ := exists_of_isOk (x := read replacing) (by decide +kernel)
  have hTexts : ∀ v ∈ givenFunctions replacing, IsText v := by
    have hGiven : givenFunctions replacing = [.str "http://example.org/near",
        .str "http://example.org/inside", .str "http://example.org/near"] := rfl
    simp [hGiven, IsText]
  obtain ⟨written, functions, hWrite, hAgain, hPerm, -, -, hNew, hKept⟩ :=
    read_write_read hTexts hRead
  refine ⟨s, written, functions, hRead, hWrite, hAgain, hPerm, ?_, ?_⟩
  · exact hNew [(.str "sosa", .str "http://www.w3.org/ns/sosa/")] _ _ [] rfl nofun
  · exact hKept (.str "xsd", .str xsd) List.mem_cons_self (by decide +kernel)

end Settings

end SparqlSelect
