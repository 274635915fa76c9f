import SparqlSelect.Proofs.Compile.Injection

/-!
# What a query was built from

A query that was built comes from the patterns of the observables of its request, or else from a
search by place. In the first case it went through three stages: the assembled patterns with the
selected variables and the modifiers, the same with the sub-query of the aggregates, and the same
with the bindings of the temporal functions.

* `buildRequest_eq_ok` — the two cases.
* `observableQuery_eq_ok` — the three stages.
-/

namespace SparqlSelect

/-- Texts that pass a check come out as they went in. -/
theorem mapM_checkText_eq_ok {allowed : List Kind} {texts texts' : List String}
    (h : (texts.mapM fun t => Kind.checkText allowed t) = .ok texts') :
    texts' = texts ∧ ∀ t ∈ texts, Kind.acceptsAny allowed t = true := by
  rw [mapM_eq_ok_iff] at h
  induction h with
  | nil => exact ⟨rfl, by simp⟩
  | cons hHead _ ih =>
    obtain ⟨rfl, hAccepts⟩ := Kind.checkText_eq_ok_iff.mp hHead
    exact ⟨congrArg _ ih.1, List.forall_mem_cons.mpr ⟨hAccepts, ih.2⟩⟩

namespace Traced

variable {α : Type}

/-- A result with its notes is the result and the notes that were left on the way. -/
theorem withNotes_eq_ok_iff {x : Traced α} {a : α} {notes : List Note} :
    x.withNotes.outcome = .ok (a, notes) ↔ x.outcome = .ok a ∧ notes = x.notes := by
  unfold withNotes
  simp only [map_eq_ok_iff, Prod.mk.injEq]
  constructor
  · rintro ⟨b, hb, rfl, rfl⟩
    exact ⟨hb, rfl⟩
  · rintro ⟨ha, rfl⟩
    exact ⟨a, ha, rfl, rfl⟩

end Traced

namespace SelectQuery

/-- Selecting items one by one keeps what selecting one does. -/
theorem foldl_project_keeps {I : SelectQuery → Prop} {items : List String} {q : SelectQuery}
    (hStep : ∀ q item, I q → I (q.project item)) (hq : I q) : I (items.foldl project q) := by
  induction items generalizing q with
  | nil => exact hq
  | cons item rest ih => exact ih (hStep q item hq)

/-- Selecting items one by one selects them and nothing else. -/
theorem mem_projection_foldl {items : List String} {q : SelectQuery} {v : String} :
    v ∈ (items.foldl project q).projection ↔ v ∈ q.projection ∨ v ∈ items := by
  induction items generalizing q with
  | nil => simp
  | cons item rest ih => simp [ih, mem_projection_project, or_assoc]

@[simp] theorem body_extend (q : SelectQuery) (a : Aggregation) :
    (q.extend a).body = q.body.add (.nested (.select a.query)) :=
  foldl_project_keeps (I := fun p => p.body = q.body.add (.nested (.select a.query)))
    (fun p item hp => by rwa [body_project]) rfl

@[simp] theorem prefixes_extend (q : SelectQuery) (a : Aggregation) :
    (q.extend a).prefixes = q.prefixes :=
  foldl_project_keeps (I := fun p => p.prefixes = q.prefixes)
    (fun p item hp => by rwa [prefixes_project]) rfl

@[simp] theorem modifiers_extend (q : SelectQuery) (a : Aggregation) :
    (q.extend a).modifiers = q.modifiers :=
  foldl_project_keeps (I := fun p => p.modifiers = q.modifiers)
    (fun p item hp => by rwa [modifiers_project]) rfl

end SelectQuery

/-- A query is extended by its aggregates, if there are any. -/
theorem withAggregates_eq_ok {q q' : SelectQuery} {groups : List (String × List FunctionCall)}
    {agg : Option Aggregation} (h : (q.withAggregates groups).outcome = .ok (q', agg)) :
    (aggregation groups).outcome = .ok agg ∧ q' = agg.elim q q.extend := by
  simp only [SelectQuery.withAggregates, Traced.outcome_bind, bind_eq_ok_iff] at h
  obtain ⟨found, hFound, h⟩ := h
  cases found with
  | none =>
    cases h
    exact ⟨hFound, rfl⟩
  | some a =>
    simp only [Traced.outcome_bind, Traced.outcome_log, bind_eq_ok_iff] at h
    obtain ⟨-, -, h⟩ := h
    cases h
    exact ⟨hFound, rfl⟩

/-- The query of some patterns with the sub-query of the aggregates, if there is one. -/
def Settings.extendedQuery (s : Settings) (subgraphs : List Subgraph) (notes : List Note)
    (modifiers : List Modifier) (agg : Option Aggregation) : SelectQuery :=
  agg.elim (s.assembledQuery subgraphs notes modifiers)
    (s.assembledQuery subgraphs notes modifiers).extend

/-- The sub-query of the aggregates stands after everything else. -/
theorem body_extendedQuery (s : Settings) (subgraphs : List Subgraph) (notes : List Note)
    (modifiers : List Modifier) (agg : Option Aggregation) :
    (s.extendedQuery subgraphs notes modifiers agg).body = ⟨(assemble subgraphs).origin,
      (assemble subgraphs).elements ++ (agg.map fun a => .nested (.select a.query)).toList⟩ := by
  cases agg with
  | none =>
    change assemble subgraphs = _
    cases assemble subgraphs
    simp
  | some a =>
    simp [Settings.extendedQuery, Settings.assembledQuery, Group.add]

@[simp] theorem modifiers_extendedQuery (s : Settings) (subgraphs : List Subgraph)
    (notes : List Note) (modifiers : List Modifier) (agg : Option Aggregation) :
    (s.extendedQuery subgraphs notes modifiers agg).modifiers = modifiers := by
  cases agg with
  | none => rfl
  | some a => exact SelectQuery.modifiers_extend _ a

@[simp] theorem prefixes_extendedQuery (s : Settings) (subgraphs : List Subgraph)
    (notes : List Note) (modifiers : List Modifier) (agg : Option Aggregation) :
    (s.extendedQuery subgraphs notes modifiers agg).prefixes = s.prefixes := by
  cases agg with
  | none => rfl
  | some a => exact SelectQuery.prefixes_extend _ a

/-- The items of the assembled query are the variables that were noted and the aliases of the
aggregates. -/
theorem mem_projection_extendedQuery {s : Settings} {subgraphs : List Subgraph} {notes : List Note}
    {modifiers : List Modifier} {aggregates : Option Aggregation} {v : String} :
    v ∈ (s.extendedQuery subgraphs notes modifiers aggregates).projection ↔
      v ∈ Traced.selectedVars notes ∨ ∃ a ∈ aggregates, v ∈ a.aliases := by
  cases aggregates with
  | none => simp [Settings.extendedQuery, Settings.assembledQuery]
  | some a =>
    simp [Settings.extendedQuery, SelectQuery.extend, SelectQuery.mem_projection_foldl,
      SelectQuery.add, Settings.assembledQuery]

/-- The stages of the query of some observables. -/
theorem observableQuery_eq_ok {s : Settings} {r : Request} {subgraphs : List Subgraph}
    {notes : List Note} {q : SelectQuery}
    (h : (s.observableQuery r subgraphs notes).outcome = .ok q) :
    ∃ modifiers agg done, r.modifiers = .ok modifiers ∧
      (∀ v ∈ Traced.selectedVars notes, Kind.acceptsAny Kind.forSelect v = true) ∧
      (aggregation (aggregateGroups notes)).outcome = .ok agg ∧
      ((s.extendedQuery subgraphs notes modifiers agg).withTemporals
        (temporalCalls notes)).outcome = .ok done ∧
      q = done.query := by
  -- the last two steps leave messages only
  simp only [Settings.observableQuery, Traced.outcome_bind, Traced.outcome_lift,
    Traced.outcome_mapM, bind_eq_ok_iff] at h
  obtain ⟨_, hProjection, modifiers, hModifiers, ⟨q', agg⟩, hAgg, done, hDone, -, -, -, -, h⟩ := h
  cases h
  obtain ⟨-, hAccepts⟩ := mapM_checkText_eq_ok hProjection
  obtain ⟨hFound, rfl⟩ := withAggregates_eq_ok hAgg
  exact ⟨modifiers, agg, done, hModifiers, hAccepts, hFound, hDone, rfl⟩

/-- A query comes from the patterns of the observables if there are any, else from a search by
place. -/
theorem buildRequest_eq_ok {s : Settings} {r : Request} {q : SelectQuery}
    (h : (s.buildRequest r).outcome = .ok q) :
    ∃ subgraphs, (r.observables.mapM (s.subgraph r)).outcome = .ok subgraphs ∧
      ((subgraphs ≠ [] ∧
        (s.observableQuery r subgraphs (r.observables.mapM (s.subgraph r)).notes).outcome = .ok q) ∨
      (subgraphs = [] ∧ (s.locationQuery r).outcome = .ok q)) := by
  simp only [Settings.buildRequest, Traced.outcome_bind, bind_eq_ok_iff] at h
  obtain ⟨⟨subgraphs, notes⟩, hBoth, h⟩ := h
  obtain ⟨hSubs, rfl⟩ := Traced.withNotes_eq_ok_iff.mp hBoth
  refine ⟨subgraphs, hSubs, ?_⟩
  split at h
  · rename_i hNonempty
    exact .inl ⟨by simpa using hNonempty, h⟩
  · rename_i hEmpty
    split at h
    · exact .inr ⟨by simpa using hEmpty, h⟩
    · cases h

/-- A payload is built if it can be read as a request that is. -/
theorem build_eq_ok_iff {s : Settings} {payload : Json} {q : SelectQuery} :
    (s.build payload).outcome = .ok q ↔
      ∃ r, Request.read payload = .ok r ∧ (s.buildRequest r).outcome = .ok q := by
  simp only [Settings.build, Traced.outcome_bind, Traced.outcome_lift, bind_eq_ok_iff]

/-- The patterns of the observables are built one by one. -/
theorem subgraphs_ok {s : Settings} {r : Request} {subgraphs : List Subgraph}
    (h : (r.observables.mapM (s.subgraph r)).outcome = .ok subgraphs) :
    List.Forall₂ (fun o sub => (s.subgraph r o).outcome = .ok sub) r.observables subgraphs := by
  rwa [Traced.outcome_mapM, mapM_eq_ok_iff] at h

/-- The stages of the query of a payload that lists observables. -/
theorem build_observables_eq_ok {s : Settings} {payload : Json} {r : Request} {q : SelectQuery}
    (hRead : Request.read payload = .ok r) (hSome : r.observables ≠ [])
    (h : (s.build payload).outcome = .ok q) :
    ∃ subgraphs modifiers agg done,
      List.Forall₂ (fun o sub => (s.subgraph r o).outcome = .ok sub) r.observables subgraphs ∧
      (∀ v ∈ Traced.selectedVars (r.observables.mapM (s.subgraph r)).notes,
        Kind.acceptsAny Kind.forSelect v = true) ∧
      (aggregation (aggregateGroups (r.observables.mapM (s.subgraph r)).notes)).outcome =
        .ok agg ∧
      ((s.extendedQuery subgraphs (r.observables.mapM (s.subgraph r)).notes modifiers
        agg).withTemporals (temporalCalls (r.observables.mapM (s.subgraph r)).notes)).outcome =
        .ok done ∧
      q = done.query := by
  obtain ⟨r', hRead', hr⟩ := build_eq_ok_iff.mp h
  rw [hRead] at hRead'
  cases hRead'
  obtain ⟨subgraphs, hSubs, ⟨-, hr⟩ | ⟨hNil, -⟩⟩ := buildRequest_eq_ok hr
  · obtain ⟨modifiers, agg, done, -, hNoted, hAgg, hDone, rfl⟩ := observableQuery_eq_ok hr
    exact ⟨subgraphs, modifiers, agg, done, subgraphs_ok hSubs, hNoted, hAgg, hDone, rfl⟩
  · rw [hNil] at hSubs
    exact absurd (List.forall₂_nil_right_iff.mp (subgraphs_ok hSubs)) hSome

/-- What holds everywhere in the pattern of an observable holds everywhere in its branch, with or
without modifiers. -/
theorem asBranch_everywhere {P : Element → Prop} {sub : Subgraph} :
    sub.asBranch.Everywhere P ↔ sub.group.Everywhere P := by
  unfold Subgraph.asBranch
  split
  · exact Branch.everywhere_group
  · exact Branch.everywhere_select

/-- The assembled pattern holds what the patterns of the observables hold. -/
theorem assemble_everywhere {P : Element → Prop} (hUnion : ∀ branches, P (.union branches))
    (hNested : ∀ b, P (.nested b)) {subgraphs : List Subgraph} :
    (assemble subgraphs).Everywhere P ↔ ∀ sub ∈ subgraphs, sub.group.Everywhere P := by
  unfold assemble
  split
  · split
    · simp
    · simp [hNested, asBranch_everywhere]
  · simp [hUnion, asBranch_everywhere]

/-- Before temporal functions are injected, a query holds what the patterns of the observables and
the sub-query of the aggregates hold. -/
theorem extendedQuery_everywhere {P : Element → Prop} (hUnion : ∀ branches, P (.union branches))
    (hNested : ∀ b, P (.nested b)) {s : Settings} {subgraphs : List Subgraph} {notes : List Note}
    {modifiers : List Modifier} {agg : Option Aggregation} :
    (s.extendedQuery subgraphs notes modifiers agg).body.Everywhere P ↔
      (∀ sub ∈ subgraphs, sub.group.Everywhere P) ∧ ∀ a ∈ agg, a.query.body.Everywhere P := by
  rw [body_extendedQuery, Group.everywhere_mk, List.forall_mem_append, ← Group.everywhere_iff,
    assemble_everywhere hUnion hNested]
  refine and_congr_right fun _ => ?_
  cases agg <;> simp [hNested]

/-- Before temporal functions are injected, a query was written by drafts. -/
theorem extended_drafted {s : Settings} {r : Request} {subgraphs : List Subgraph}
    {notes : List Note} {modifiers : List Modifier} {agg : Option Aggregation}
    (hSubs : List.Forall₂ (fun o sub => (s.subgraph r o).outcome = .ok sub) r.observables subgraphs)
    (hAgg : (aggregation (aggregateGroups notes)).outcome = .ok agg) :
    (s.extendedQuery subgraphs notes modifiers agg).body.Everywhere Element.IsDrafted := by
  refine (extendedQuery_everywhere (fun _ => trivial) fun _ => trivial).mpr
    ⟨fun sub hSub => ?_, fun a ha => ?_⟩
  · obtain ⟨o, -, ho⟩ := exists_of_forall₂_right hSubs hSub
    exact (subgraph_drafted ho).2.1
  · rw [Option.mem_def] at ha
    exact aggregation_drafted (ha ▸ hAgg)

/-- A clause with its name and its input. -/
def clauseOf (name : String) (input : List (String × Json)) : Json :=
  .obj [("selectedFilter", .obj [("text", .str name)]), ("input", .obj input)]

/-- A request with an element of every kind: two observables, one with a limit of its own, and
among their filters an optional one, a circle, a range that wraps around and both kinds of
functions. -/
def stationPayload : Json := .obj [
  ("observables", .arr [
    .obj [("subject", .str "?st"), ("predicate", .str "rdfs:label"), ("object", .str "?name")],
    .obj [("subject", .str "?st"), ("predicate", .str "x:value"), ("object", .str "?v"),
      ("modifiers", .obj [("limit", .obj [("enabled", .bool true), ("value", .int 5)])])]]),
  ("filters", .obj [
    ("rdfs:label", .arr [
      .obj [("uri", .str "x:since"), ("predicateName", .str "?since"), ("isOptional", .bool true),
        ("filters", .arr [
          clauseOf "temporal function" [("value", .str "year")],
          clauseOf "regex" [("value", .str "\"19")]])],
      .obj [("uri", .str "http://www.opengis.net/def/function/geosparql/nearby"),
        ("filters", .arr [clauseOf "nearby" [("radius", .int 500),
          ("center", .obj [("lat", .int 52), ("lng", .int 13)])]])]]),
    ("x:value", .arr [
      .obj [("uri", .str "x:depth"), ("predicateName", .str "?d"), ("datatype", .str "xsd:int"),
        ("filters", .arr [
          clauseOf "range" [("expression", .str "gt"), ("value", .int 3)],
          clauseOf "range" [("expression", .str "lt"), ("value", .int 1)],
          clauseOf "function" [("value", .str "avg")]])]])])]

/-- That request has a query. -/
theorem stationPayload_builds :
    (Settings.standard.build stationPayload).outcome.isOk = true := by decide +kernel

end SparqlSelect
