import SparqlSelect.Proofs.Compile.Equivalent

/-!
# Filters of other keys

Each observable looks up the specs of its own key, and nothing else reads the filters as long as
there is an observable. So two requests whose filters hold the same specs for the keys of their
observables are compiled in the same way, note by note; what else the filters hold, the order of
their entries and the pattern of a search by place are never looked at.

* `readFilters`, `readObservables`, `readKeys` — parts of a payload, read by themselves.
* `buildRequest_of_specs` — requests with the same specs for the keys of their observables.
* `compile_own_keys` — payloads whose filters hold the same specs for these keys.
-/

namespace SparqlSelect

-- ---------------------------------------------------------------------------
-- Requests
-- ---------------------------------------------------------------------------

/-- Two computations go on in the same way if they do so with the value of the first part. -/
theorem Traced.bind_congr {α β : Type} {x : Traced α} {f g : α → Traced β}
    (h : ∀ a, x.outcome = .ok a → f a = g a) : x >>= f = x >>= g := by
  cases hx : x.outcome with
  | error e => rw [Traced.bind_of_error hx, Traced.bind_of_error hx]
  | ok a => rw [Traced.bind_of_ok hx, Traced.bind_of_ok hx, h a hx]

theorem mapM_congr {α β : Type} {f g : α → Traced β} {xs : List α} (h : ∀ x ∈ xs, f x = g x) :
    xs.mapM f = xs.mapM g := by
  induction xs with
  | nil => rfl
  | cons x rest ih =>
    rw [List.forall_mem_cons] at h
    rw [List.mapM_cons, List.mapM_cons, h.1, ih h.2]

/-- Two requests with the same observables, keys and modifiers, and with the same specs for the
keys of the observables. -/
structure Request.SameForObservables (r r' : Request) : Prop where
  observables : r'.observables = r.observables
  keys : r'.keys = r.keys
  modifiers : r'.modifiers = r.modifiers
  specs : ∀ o ∈ r.observables, r'.specsOf (o.key r.keys) = r.specsOf (o.key r.keys)

section

variable {s : Settings} {r r' : Request}

/-- An observable looks up the specs of its key. -/
theorem subgraph_of_specs {o : Observable} (hKeys : r'.keys = r.keys)
    (hSpecs : r'.specsOf (o.key r.keys) = r.specsOf (o.key r.keys)) :
    s.subgraph r' o = s.subgraph r o := by
  simp only [Settings.subgraph, hKeys, hSpecs]

/-- Requests with the same specs for the keys of their observables come to the same. -/
theorem buildRequest_of_specs (h : r.SameForObservables r') (hSome : r.observables ≠ []) :
    s.buildRequest r' = s.buildRequest r := by
  have hSubgraphs : r'.observables.mapM (s.subgraph r') = r.observables.mapM (s.subgraph r) := by
    rw [h.observables]
    exact mapM_congr fun o ho => subgraph_of_specs h.keys (h.specs o ho)
  rw [Settings.buildRequest, Settings.buildRequest, hSubgraphs]
  refine Traced.bind_congr ?_
  rintro ⟨subgraphs, notes⟩ hBuilt
  obtain ⟨hEach, -⟩ := Traced.withNotes_eq_ok_iff.mp hBuilt
  -- there is a pattern for each observable, so this is no search by place
  have hGiven : (!subgraphs.isEmpty) = true := by
    cases subgraphs with
    | nil => exact absurd (List.forall₂_nil_right_iff.mp (subgraphs_ok hEach)) hSome
    | cons sub rest => rfl
  dsimp only
  rw [if_pos hGiven, if_pos hGiven]
  exact observableQuery_congr h.modifiers rfl fun _ => rfl

end

-- ---------------------------------------------------------------------------
-- Payloads
-- ---------------------------------------------------------------------------

/-- The filters of a request, read by themselves. -/
def readFilters (members : List (String × Json)) :
    Except Failure (List (String × List FilterSpec)) := do
  (← filterEntries members).mapM readEntry

/-- The observables of a request, read by themselves. -/
def readObservables (members : List (String × Json)) : Except Failure (List Observable) := do
  let items ← Fault.raise (orElseEmpty (Json.member "observables" members) (.arr [])).toItems
  readItems Observable.read "observables" items

/-- The keys of a request, read by themselves. -/
def readKeys (members : List (String × Json)) : Except Failure (List String) := do
  let keys ← Fault.raise (orElseEmpty (Json.member "observablesKeys" members) (.arr [])).toItems
  .ok (keys.map Json.display)

/-- Two payloads have the same members but for the filters and the pattern of a search by place. -/
structure SameButFilters (members members' : List (String × Json)) : Prop where
  observables : Json.member "observables" members' = Json.member "observables" members
  keys : Json.member "observablesKeys" members' = Json.member "observablesKeys" members
  sort : Json.member "sortBy" members' = Json.member "sortBy" members
  limit : Json.member "limit" members' = Json.member "limit" members

/-- Two maps of filters hold the same specs, or none, for the keys of some observables. -/
def SameForKeys (observables : List Observable) (keys : List String)
    (filters filters' : List (String × List FilterSpec)) : Prop :=
  ∀ o ∈ observables, (filters'.lookup (o.key keys)).getD [] = (filters.lookup (o.key keys)).getD []

section

variable {members members' : List (String × Json)}
  {filters filters' : List (String × List FilterSpec)}

/-- A request whose filters can be read is read part by part. -/
theorem Request.read_of_filters (h : readFilters members = .ok filters) :
    Request.read (.obj members) = (do
      let observables ← readObservables members
      let keys ← readKeys members
      let limit ← readLimit (Json.member "limit" members) "limit"
      .ok {
        observables
        keys
        filters
        sort := SortSpec.read (Json.member "sortBy" members)
        limit
        sensorPattern := Json.member "sensorPattern" members }) := by
  obtain ⟨entries, hEntries, hFilters⟩ := bind_eq_ok_iff.mp h
  have hOk {α β : Type} (a : α) (f : α → Except Failure β) : Except.ok a >>= f = f a := rfl
  simp only [Request.read, readObservables, readKeys, hEntries, hFilters, hOk, bind_assoc]

/-- There is an observable if the list of them counts as given. -/
theorem readObservables_ne_nil {observables : List Observable}
    (hSome : (Json.member "observables" members).isSet = true)
    (h : readObservables members = .ok observables) : observables ≠ [] := by
  obtain ⟨items, hItems, hRead⟩ := bind_eq_ok_iff.mp h
  rw [orElseEmpty, if_pos hSome, raise_eq_ok_iff] at hItems
  have hLength : items.length = observables.length := by
    simpa using (mapM_eq_ok_iff.mp hRead).length_eq
  intro hNil
  rw [hNil] at hLength
  exact Json.ne_nil_of_toItems hSome hItems (List.eq_nil_of_length_eq_zero hLength)

/-- **Filters of other keys.** Payloads that list the same observables with the same keys and
modifiers are compiled in the same way, to the same text or the same failure, if their filters can
be read and hold the same specs for the keys of the observables. -/
theorem compile_own_keys {s : Settings} (hSame : SameButFilters members members')
    (hSome : (Json.member "observables" members).isSet = true)
    (hFilters : readFilters members = .ok filters) (hFilters' : readFilters members' = .ok filters')
    (hOwn : ∀ observables keys, readObservables members = .ok observables →
      readKeys members = .ok keys → SameForKeys observables keys filters filters') :
    s.build (.obj members') = s.build (.obj members) ∧
      s.compile (.obj members') = s.compile (.obj members) := by
  have hBuild : s.build (.obj members') = s.build (.obj members) := by
    have hObservables : readObservables members' = readObservables members := by
      rw [readObservables, readObservables, hSame.observables]
    have hKeys : readKeys members' = readKeys members := by
      rw [readKeys, readKeys, hSame.keys]
    rw [Settings.build, Settings.build, Request.read_of_filters hFilters,
      Request.read_of_filters hFilters', hObservables, hKeys, hSame.sort, hSame.limit]
    -- what cannot be read is the same for both
    cases hObserved : readObservables members with
    | error f => rfl
    | ok observables =>
      cases hNamed : readKeys members with
      | error f => rfl
      | ok keys =>
        cases readLimit (Json.member "limit" members) "limit" with
        | error f => rfl
        | ok limit =>
          have hSpecs := hOwn observables keys hObserved hNamed
          refine buildRequest_of_specs ⟨rfl, rfl, rfl, hSpecs⟩ ?_
          exact readObservables_ne_nil hSome hObserved
  refine ⟨hBuild, ?_⟩
  rw [Settings.compile, Settings.compile, hBuild]

/-- The specs of a key are read from the first entry of the key and from nothing else. -/
theorem lookup_entries {entries : List (String × Json)} (key : String)
    (h : entries.mapM readEntry = .ok filters) :
    filters.lookup key = (entries.lookup key).bind fun value =>
      (readSpecs value ("filters[" ++ quoted key ++ "]")).toOption := by
  rw [mapM_eq_ok_iff] at h
  induction h with
  | nil => rfl
  | @cons entry found entries filters hEntry _ ih =>
    obtain ⟨name, value⟩ := entry
    obtain ⟨specs, hSpecs, rfl⟩ := map_eq_ok_iff.mp hEntry
    rw [List.lookup_cons, List.lookup_cons]
    -- the first entry of the key decides, in the list that is read as in the list of what was read
    cases hName : key == name with
    | false => exact ih
    | true =>
      rw [beq_iff_eq] at hName
      exact (toOption_eq_some_iff.mpr (hName ▸ hSpecs)).symm

/-- A payload with one observable and some filters. -/
def courseMembers (filters : List (String × Json)) : List (String × Json) :=
  [("observables", .arr [.obj [("subject", .str "?ship"), ("predicate", .str "x:course"),
    ("object", .str "?c")]]), ("filters", .obj filters)]

/-- The filters of the key of the observable. -/
def courseFilters : String × Json :=
  ("x:course", .arr [.obj [("uri", .str "x:heading"), ("predicateName", .str "?h"),
    ("filters", .arr [clauseOf "contain" [("value", .str "north")]])]])

/-- Filters of another key. -/
def portFilters : String × Json :=
  ("x:port", .arr [.obj [("uri", .str "x:name"), ("predicateName", .str "?port"),
    ("isSelectable", .bool true),
    ("filters", .arr [clauseOf "aggregate function" [("value", .str "max")]])]])

/-- The same payload with filters of another key before those of the observable, and with a pattern
for a search by place. -/
def portMembers : List (String × Json) :=
  courseMembers [portFilters, courseFilters] ++
    [("sensorPattern", .obj [("sensorKey", .str "s")])]

/-- The other filters and the pattern make no difference. -/
theorem compile_own_keys_course :
    (Settings.standard.compile (.obj (courseMembers [courseFilters]))).isOk = true ∧
      Settings.standard.compile (.obj portMembers) =
        Settings.standard.compile (.obj (courseMembers [courseFilters])) := by
  obtain ⟨filters, hFilters⟩ := exists_of_isOk
    (show ([courseFilters].mapM readEntry).isOk = true by decide +kernel)
  obtain ⟨filters', hFilters'⟩ := exists_of_isOk
    (show ([portFilters, courseFilters].mapM readEntry).isOk = true by decide +kernel)
  have hRead : readFilters (courseMembers [courseFilters]) = .ok filters := hFilters
  have hRead' : readFilters portMembers = .ok filters' := hFilters'
  have hSame : SameButFilters (courseMembers [courseFilters]) portMembers := ⟨rfl, rfl, rfl, rfl⟩
  refine ⟨by decide +kernel, (compile_own_keys hSame rfl hRead hRead' ?_).2⟩
  intro observables keys hObservables hKeys o ho
  -- the one observable has no key of its own, and its attribute is looked up in both lists
  have hOnly : readObservables (courseMembers [courseFilters]) =
    .ok [⟨"?ship", "x:course", "?c", none, none, .null⟩] := rfl
  rw [hOnly] at hObservables
  cases hObservables
  cases hKeys
  rw [List.mem_singleton.mp ho, lookup_entries _ hFilters, lookup_entries _ hFilters']
  rfl

end

end SparqlSelect
