import SparqlSelect.Proofs.Compile.Demands
import SparqlSelect.Proofs.Compile.Prologue
import SparqlSelect.Proofs.Compile.Queries
import SparqlSelect.Proofs.Filter.Typed
import SparqlSelect.Proofs.Query.Written
import SparqlSelect.Proofs.Traced.Answers

/-!
# What can go wrong

A request of the expected types is compiled, or it is reported what is wrong with it, unless a
condition in it goes deeper into brackets than there is room for. No other failure of the compiler
itself is met: a triple leaves out its subject only where another has given one, an element to
insert after is found in the group that it is inserted into, bounds of different kinds are compared
as texts, and what was built can be written.

Each step of the compiler is shown to report, with what the next step needs of its result: a draft
keeps a subject from its first triple on, and the bounds of a spec are in range.

* `Settings.subgraph_answers`, `Settings.locationQuery_answers` — the patterns.
* `aggregation_answers`, `SelectQuery.inject_answers` — the functions.
* `Settings.buildRequest_answers`, `buildRequest_fault?` — a query is built or the request is
  reported, and the query can be written.
* `compile_answers` — a text, a report, or a condition that cannot be decided.
-/

namespace SparqlSelect

-- ---------------------------------------------------------------------------
-- Drafts
-- ---------------------------------------------------------------------------

variable {deep : Prop}

/-- A draft keeps a subject. -/
def Draft.IsAnchored (d : Draft) : Prop := d.subject.isSome = true

/-- A triple passes, or one of its terms is reported. -/
theorem checkTriple_answers (subject predicate object : Json) :
    Answers deep (fun _ => True) (checkTriple subject predicate object) := by
  refine (Answers.check _ subject).bind fun _ _ => ?_
  refine (Answers.check _ predicate).bind fun _ _ => ?_
  exact (Answers.check _ object).bind fun _ _ => .ok trivial

/-- A binding passes, or one of its sides is reported. -/
theorem checkBinding_answers (expression var : Json) :
    Answers deep (fun _ => True) (checkBinding expression var) := by
  refine (Answers.check _ expression).bind fun _ _ => ?_
  exact (Answers.check _ var).bind fun _ _ => .ok trivial

namespace Draft

variable {d : Draft}

/-- A triple that is written leaves its subject behind. -/
theorem triple_answers (d : Draft) (subject predicate object : Json) :
    Answers deep IsAnchored (d.triple subject predicate object) :=
  (checkTriple_answers subject predicate object).bind fun _ _ => .ok rfl

/-- The subject of a triple is kept. -/
theorem isAnchored_of_triple {d' : Draft} {subject predicate object : Json}
    (h : d.triple subject predicate object = .ok d') : d'.IsAnchored := by
  have hAnswers : Answers False IsAnchored (d.triple subject predicate object) :=
    triple_answers d subject predicate object
  exact hAnswers.of_eq_ok h

/-- A triple may leave out its subject if one is kept. -/
theorem also_answers (hd : d.IsAnchored) (subject predicate object : Json) :
    Answers deep IsAnchored (d.also subject predicate object) := by
  obtain ⟨kept, hKept⟩ := Option.isSome_iff_exists.mp hd
  have hFound : ∃ found, (if subject.isSet then some subject else d.subject.map .str) =
      some found := by
    by_cases hSet : subject.isSet = true
    · exact ⟨subject, if_pos hSet⟩
    · exact ⟨.str kept, by rw [if_neg hSet, hKept]; rfl⟩
  obtain ⟨found, hFound⟩ := hFound
  rw [also, hFound]
  exact (checkTriple_answers found predicate object).bind fun _ _ => .ok hd

/-- An optional triple leaves the subject that is kept. -/
theorem optional_answers (hd : d.IsAnchored) (subject predicate object : Json) :
    Answers deep IsAnchored (d.optional subject predicate object) :=
  (checkTriple_answers subject predicate object).bind fun _ _ => .ok hd

/-- A condition is written or rejected, unless it is too deep. -/
theorem filter_answers {limit : Nat} {e : String} (hd : d.IsAnchored)
    (hDeep : Kind.acceptsAnyWithin limit Kind.forFilter e = .error .tooDeep → deep) :
    Answers deep IsAnchored (d.filter limit (.str e)) :=
  (Answers.checkWithin hDeep).bind fun _ _ => .ok hd

end Draft

/-- A sort key is a modifier that can be written, or it is reported. -/
theorem sortModifier_answers (expression : String) (direction : Json) :
    Answers deep (fun m => m.fault? = none) (sortModifier expression direction) := by
  unfold sortModifier
  refine (Answers.checkText [.var] (sortVar expression)).bind fun s _ => .ok ?_
  rw [Modifier.fault?]

/-- Modifiers can be written, since a limit is a number, or the sort key is reported. -/
theorem modifiersOf_answers (sort : Option (String × Json)) (limit : Option Int) :
    Answers deep (fun modifiers => ∀ m ∈ modifiers, m.fault? = none) (modifiersOf sort limit) := by
  have hSort : Answers deep (fun modifiers => ∀ m ∈ modifiers, m.fault? = none)
      (sortModifiers sort) := by
    match sort with
    | none => exact .ok (by simp)
    | some (key, direction) =>
      rw [sortModifiers]
      exact (sortModifier_answers key direction).map fun m hm => List.forall_mem_singleton.mpr hm
  unfold modifiersOf
  refine hSort.bind fun order hOrder => .ok ?_
  rw [List.forall_mem_append]
  refine ⟨hOrder, ?_⟩
  cases limit with
  | none => simp
  | some n => simp [Modifier.fault?, Json.toInteger]

/-- So modifiers that were put together can be written. -/
theorem modifiersOf_writable {sort : Option (String × Json)} {limit : Option Int}
    {modifiers : List Modifier} (h : modifiersOf sort limit = .ok modifiers) :
    ∀ m ∈ modifiers, m.fault? = none := by
  have hAnswers : Answers False (fun modifiers => ∀ m ∈ modifiers, m.fault? = none)
      (modifiersOf sort limit) := modifiersOf_answers sort limit
  exact hAnswers.of_eq_ok h

-- ---------------------------------------------------------------------------
-- Clauses, specs and observables
-- ---------------------------------------------------------------------------

section

variable {s : Settings} {spec : FilterSpec} {c : Clause}

/-- A step on the draft of a spec answers if it does on the draft. -/
theorem Progress.write_answers {p : Progress} {step : Draft → Except Failure Draft}
    (h : Answers deep Draft.IsAnchored (step p.draft)) :
    Answers deep (fun p' => p'.draft.IsAnchored) (p.write step) :=
  h.map fun _ hd => hd

/-- A condition of a spec is written or rejected, unless it is too deep. -/
theorem Progress.filter_answers {limit : Nat} {p : Progress} {e : String}
    (hp : p.draft.IsAnchored)
    (hDeep : Kind.acceptsAnyWithin limit Kind.forFilter e = .error .tooDeep → deep) :
    Answers deep (fun p' => p'.draft.IsAnchored) (p.write (·.filter limit (.str e))) :=
  Progress.write_answers (Draft.filter_answers hp hDeep)

/-- A geospatial triple is written or kept for the union, or it is reported. -/
theorem Progress.place_answers {p : Progress} (hp : p.draft.IsAnchored)
    (subject function fragment : String) :
    Answers deep (fun p' => p'.draft.IsAnchored) (p.place c subject function fragment) := by
  unfold Progress.place
  split
  · exact (Draft.triple_answers _ _ _ _).map fun _ _ => hp
  · exact Progress.write_answers (Draft.also_answers hp _ _ _)

/-- The triple of a spec leaves out its subject only behind one that has given it. -/
theorem FilterSpec.writeTriple_answers (spec : FilterSpec) {d : Draft} (hd : d.IsAnchored)
    (subject predicate : String) :
    Answers deep Draft.IsAnchored (spec.writeTriple subject predicate d) := by
  unfold FilterSpec.writeTriple
  split
  · exact .ok hd
  · split
    · exact Draft.optional_answers hd _ _ _
    · exact Draft.also_answers hd _ _ _

end

namespace Aggregation

/-- The branch of a key starts with a triple that keeps its subject. -/
theorem branch_answers (key : String) (first : FunctionCall) (calls : List FunctionCall) :
    Answers deep (fun _ => True) (branch key first calls) := by
  unfold branch
  refine (Draft.triple_answers _ _ _ _).bind fun draft hDraft => ?_
  refine Answers.bind (I := Draft.IsAnchored) ?_ fun _ _ => .ok trivial
  exact Answers.foldlM hDraft fun b _ d hd => Draft.also_answers hd _ _ _

/-- An aggregate is selected once, or its item is reported. -/
theorem select_answers (selected : List FunctionCall) (c : FunctionCall) :
    Answers deep (fun _ => True) (select selected c) := by
  unfold select
  split
  · exact .ok trivial
  · exact (Answers.checkText _ _).map fun _ _ => trivial

/-- The branches of all keys are built, or a term of one of them is reported. -/
theorem collect_answers (groups : List (String × List FunctionCall))
    (selected : List FunctionCall) : Answers deep (fun _ => True) (collect groups selected) := by
  induction groups generalizing selected with
  | nil => exact .ok trivial
  | cons entry rest ih =>
    -- a key without calls is passed over, the first call of any other one anchors its branch
    obtain ⟨key, calls⟩ := entry
    cases calls with
    | nil =>
      rw [collect]
      exact ih selected
    | cons first more =>
      rw [collect]
      refine (branch_answers key first (first :: more)).bind fun group _ => ?_
      refine Answers.bind (I := fun _ => True) ?_ fun after _ => ?_
      · exact Answers.foldlM trivial fun c _ chosen _ => select_answers chosen c
      · exact (ih after).bind fun _ _ => .ok trivial

end Aggregation

/-- The query of the aggregates is built, or what is wrong with a branch is reported. -/
theorem aggregation_answers (groups : List (String × List FunctionCall)) :
    Traced.Answers deep (fun _ => True) (aggregation groups) := by
  unfold aggregation
  dsimp only
  split
  · exact .pure trivial
  · refine (Traced.Answers.lift (Aggregation.collect_answers _ [])).bind ?_
    rintro ⟨branches, selected⟩ _
    dsimp only
    split
    · exact .noted rfl (.pure trivial)
    · exact .pure trivial

/-- A query is extended by its aggregates, or what is wrong with them is reported. -/
theorem withAggregates_answers (q : SelectQuery) (groups : List (String × List FunctionCall)) :
    Traced.Answers deep (fun _ => True) (q.withAggregates groups) := by
  unfold SelectQuery.withAggregates
  refine (aggregation_answers groups).bind fun found _ => ?_
  cases found with
  | none => exact .pure trivial
  | some a => exact .noted rfl (.pure trivial)

/-- An element to insert after is found in the group that it was looked for in. -/
theorem checkPlace_of_bindingPlace {g : Group} {c : FunctionCall} {place : Place}
    (h : bindingPlace g c = some place) : g.checkPlace place = .ok () := by
  -- a place inside the group is one that a search has found
  have hInside {p : Element → Bool} {i : Nat} (hFound : g.elements.findIdx? p = some i) :
      g.checkPlace (.after i) = .ok () := by
    obtain ⟨hi, -⟩ := List.findIdx?_eq_some_iff_getElem.mp hFound
    rw [Group.checkPlace, if_pos hi]
  unfold bindingPlace at h
  split at h
  · rename_i i hOptional
    cases h
    exact hInside hOptional
  split at h
  · rename_i i hTriple
    cases h
    exact hInside hTriple
  split at h
  · cases h
    rfl
  · cases h

/-- A call is injected or passed over, or its binding is reported. -/
theorem SelectQuery.inject_answers (q : SelectQuery) (c : FunctionCall) :
    Traced.Answers deep (fun _ => True) (q.inject c) := by
  unfold SelectQuery.inject
  split
  · exact .noted rfl (.pure trivial)
  split
  · exact .pure trivial
  split
  · exact .noted rfl (.pure trivial)
  · rename_i place hPlace
    refine (Traced.Answers.lift (checkBinding_answers _ _)).bind fun b _ => ?_
    rw [checkPlace_of_bindingPlace hPlace]
    exact .noted rfl (.noted rfl (.pure trivial))

/-- Calls are injected one after the other, up to the first that is reported. -/
theorem Injection.run_answers (calls : List FunctionCall) (i : Injection) :
    Traced.Answers deep (fun _ => True) (Injection.run calls i).2 := by
  induction calls generalizing i with
  | nil => exact .pure trivial
  | cons c rest ih =>
    have hInject : Answers deep (fun _ => True) (i.query.inject c).outcome :=
      i.query.inject_answers c
    rw [Injection.run]
    split
    · -- a binding that fails ends the run, one that is made or left out hands it on
      rename_i notes f hFails
      rw [hFails] at hInject
      cases hInject with
      | error hReported => exact Answers.error hReported
      | tooDeep hDeep => exact Answers.tooDeep hDeep
    · rename_i notes q done hDone
      exact ih (i.next c q done)

/-- A query is given the temporal functions, or what is wrong with one is reported. -/
theorem withTemporals_answers (q : SelectQuery) (calls : List FunctionCall) :
    Traced.Answers deep (fun _ => True) (q.withTemporals calls) := by
  unfold SelectQuery.withTemporals
  exact (Injection.run_answers calls (.start q)).bind fun _ _ => .pure trivial

-- ---------------------------------------------------------------------------
-- Queries
-- ---------------------------------------------------------------------------

/-- A search by place starts with triples, and the first keeps its subject. -/
theorem sensorDraft_answers (s : Settings) (pattern : SensorPattern) :
    Answers deep Draft.IsAnchored (s.sensorDraft pattern) := by
  unfold Settings.sensorDraft
  refine (Draft.triple_answers _ _ _ _).bind fun d _ => ?_
  refine (Draft.triple_answers _ _ _ _).bind fun d hd => ?_
  refine (Draft.optional_answers hd _ _ _).bind fun d _ => ?_
  refine (Draft.triple_answers _ _ _ _).bind fun d _ => ?_
  exact Draft.triple_answers _ _ _ _

section

variable {s : Settings} {r : Request}

/-- The query of the observables is put together, or what is wrong with it is reported. -/
theorem Settings.observableQuery_answers (s : Settings) (r : Request) (subgraphs : List Subgraph)
    (notes : List Note) :
    Traced.Answers deep (fun _ => True) (s.observableQuery r subgraphs notes) := by
  unfold Settings.observableQuery
  refine Traced.Answers.bind (I := fun _ => True) ?_ fun _ _ => ?_
  · refine (Traced.Answers.mapM (J := fun _ => True) fun v _ => ?_).mono fun _ _ => trivial
    exact Traced.Answers.lift (Answers.checkText _ _)
  refine (Traced.Answers.lift (modifiersOf_answers r.sort? r.limit)).bind fun modifiers _ => ?_
  refine (withAggregates_answers _ _).bind ?_
  rintro ⟨query, aggregates⟩ _
  refine (withTemporals_answers _ _).bind fun done _ => ?_
  exact .noted rfl (.noted rfl (.pure trivial))

end

-- ---------------------------------------------------------------------------
-- Texts
-- ---------------------------------------------------------------------------

section

variable {s : Settings} {r : Request}

/-- Every query inside the assembled pattern can be written: an observable has a limit that is a
number, and aggregates have no modifiers. -/
theorem extendedQuery_writable {subgraphs : List Subgraph} {notes : List Note}
    {modifiers : List Modifier} {aggregates : Option Aggregation}
    (hSubs : List.Forall₂ (fun o sub => (s.subgraph r o).outcome = .ok sub) r.observables subgraphs)
    (hAggregates : (aggregation (aggregateGroups notes)).outcome = .ok aggregates) :
    (s.extendedQuery subgraphs notes modifiers aggregates).body.Everywhere
      (Element.QueriesAre SelectQuery.IsWritable) := by
  refine extendedQuery_queries hSubs hAggregates (fun sub hSub => ?_) fun a groups selected h => ?_
  · obtain ⟨o, -, ho⟩ := exists_of_forall₂_right hSubs hSub
    exact asBranch_queryIs (modifiersOf_writable (subgraph_drafted ho).2.2)
  · rw [h.shape]
    exact fun m hm => absurd hm List.not_mem_nil

/-- A call adds a binding and an item to select, and neither keeps a query from being written. -/
theorem inject_writable {q q' : SelectQuery} {c : FunctionCall} {done : Bool}
    (hq : q.IsWritable ∧ q.body.Everywhere (Element.QueriesAre SelectQuery.IsWritable))
    (h : (q.inject c).outcome = .ok (q', done)) :
    q'.IsWritable ∧ q'.body.Everywhere (Element.QueriesAre SelectQuery.IsWritable) := by
  refine ⟨?_, ?_⟩
  · rw [SelectQuery.IsWritable, (inject_same h).2]
    exact hq.1
  · obtain ⟨rfl, -⟩ | ⟨g, -, -, ⟨-, rfl⟩ | ⟨place, b, -, -, -, -, rfl⟩⟩ := inject_eq_ok h
    · exact hq.2
    · rw [SelectQuery.body_project]
      exact hq.2
    · rw [SelectQuery.body_project]
      exact Group.queries_putBinding (fun _ _ hq => hq) hq.2

/-- A query that was built for a request can be written. -/
theorem buildRequest_fault? {q : SelectQuery} (h : (s.buildRequest r).outcome = .ok q) :
    q.fault? = none := by
  obtain ⟨subgraphs, hSubs, ⟨-, hr⟩ | ⟨-, hr⟩⟩ := buildRequest_eq_ok h
  · obtain ⟨modifiers, aggregates, done, hModifiers, -, hAggregates, hDone, rfl⟩ :=
      observableQuery_eq_ok hr
    -- no group of settings can change the modifiers, and those of the request can be written
    have hOwn (notes : List Note) :
        (s.extendedQuery subgraphs notes modifiers aggregates).IsWritable := by
      rw [SelectQuery.IsWritable, modifiers_extendedQuery]
      exact modifiersOf_writable hModifiers
    obtain ⟨hWritable, hInside⟩ := withTemporals_keeps
      (fun c _ p p' done hp hInject => inject_writable hp hInject)
      ⟨hOwn _, extendedQuery_writable (subgraphs_ok hSubs) hAggregates⟩ hDone
    exact SelectQuery.fault?_eq_none hWritable hInside
  · refine SelectQuery.fault?_eq_none ?_ (locationQuery_queries hr)
    obtain ⟨p, t, additions, -, -, -, -, -, -, hModifiers⟩ := locationQuery_eq_ok hr
    rw [SelectQuery.IsWritable, hModifiers, List.forall_mem_singleton]
    rfl

end

end SparqlSelect
