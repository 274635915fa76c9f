import SparqlSelect.Proofs.Compile.Aggregates
import SparqlSelect.Proofs.Compile.Assembly
import SparqlSelect.Proofs.Compile.Demands

/-!
# What a query selects, in order

A query is asked for its selected items in three passes: first for the variables that were noted
while the patterns of the observables were built, then for the aliases of the aggregates, then for
the alias of each temporal function that is injected. Each pass appends what is not there yet, so
the query selects all of it in this order, each item at its first place. What the notes ask for can
be read off the request, so the order is known without building anything.

* `Settings.Stages` — how a query came about from a request.
* `build_stages` — every query of some observables came about like this.
* `build_projection_eq` — what it selects.
-/

namespace SparqlSelect

/-- The functions of a category that a request asks for, in the order in which they are computed:
key by key in the order of first request, and the functions of one key in the order of request. -/
def Settings.groupedCalls (s : Settings) (category : FunctionCategory) (r : Request) :
    List FunctionCall := (FunctionCall.grouped (s.requested category r)).flatMap (·.2)

/-- How a query came about from the observables of a request: their patterns, the sub-query of the
aggregates that the request asks for, the query that these make, and the injection of the temporal
functions that it asks for. -/
structure Settings.Stages (s : Settings) (r : Request) (subgraphs : List Subgraph)
    (aggregates : Option Aggregation) (before : SelectQuery)
    (steps : List (FunctionCall × Bool)) (done : Injection) : Prop where
  patterns : List.Forall₂ (fun o sub => (s.subgraph r o).outcome = .ok sub) r.observables subgraphs
  aggregation :
    (aggregation (FunctionCall.grouped (s.requested .aggregate r))).outcome = .ok aggregates
  assembled : ∃ modifiers, r.modifiers = .ok modifiers ∧ before =
    s.extendedQuery subgraphs (r.observables.mapM (s.subgraph r)).notes modifiers aggregates
  injection : (before.withTemporals (s.groupedCalls .temporal r)).outcome = .ok done
  calls : steps.map (·.1) = s.groupedCalls .temporal r
  reports : done.Reports before steps

section

variable {s : Settings} {r : Request} {payload : Json} {q before : SelectQuery}
  {subgraphs : List Subgraph} {aggregates : Option Aggregation}
  {steps : List (FunctionCall × Bool)} {done : Injection}

/-- The query of every payload with observables came about in these stages. -/
theorem build_stages (hRead : Request.read payload = .ok r) (hSome : r.observables ≠ [])
    (h : (s.build payload).outcome = .ok q) :
    ∃ subgraphs aggregates before steps done,
      s.Stages r subgraphs aggregates before steps done ∧ done.query = q := by
  obtain ⟨r', hRead', hr⟩ := build_eq_ok_iff.mp h
  rw [hRead] at hRead'
  cases hRead'
  -- with observables there are subgraphs, so the query is the one of a selection
  obtain ⟨subgraphs, hSubs, ⟨-, hr⟩ | ⟨hNil, -⟩⟩ := buildRequest_eq_ok hr
  · obtain ⟨modifiers, aggregates, done, hModifiers, -, hAgg, hDone, rfl⟩ :=
      observableQuery_eq_ok hr
    rw [aggregateGroups, calls_eq .aggregate hSubs] at hAgg
    rw [temporalCalls, calls_eq .temporal hSubs] at hDone
    obtain ⟨steps, hCalls, hReports⟩ := withTemporals_reports hDone
    exact ⟨subgraphs, aggregates, _, steps, done, {
      patterns := subgraphs_ok hSubs
      aggregation := hAgg
      assembled := ⟨modifiers, hModifiers, rfl⟩
      injection := hDone
      calls := hCalls
      reports := hReports }, rfl⟩
  · rw [hNil] at hSubs
    exact absurd (List.forall₂_nil_right_iff.mp (subgraphs_ok hSubs)) hSome

theorem Settings.Stages.patterns_built (h : s.Stages r subgraphs aggregates before steps done) :
    (r.observables.mapM (s.subgraph r)).outcome = .ok subgraphs := by
  rw [Traced.outcome_mapM, mapM_eq_ok_iff]
  exact h.patterns

/-- Before any temporal function is injected there are no bindings. -/
theorem Settings.Stages.drafted (h : s.Stages r subgraphs aggregates before steps done) :
    before.body.Everywhere Element.IsDrafted := by
  obtain ⟨modifiers, -, rfl⟩ := h.assembled
  refine extended_drafted h.patterns ?_
  rw [aggregateGroups, calls_eq .aggregate h.patterns_built]
  exact h.aggregation

theorem Settings.Stages.withoutBindings_before
    (h : s.Stages r subgraphs aggregates before steps done) :
    before.body.withoutBindings = before.body :=
  Group.withoutBindings_eq_self (fun _ h => h) _ h.drafted

/-- Without its bindings the pattern of a query is the one before any injection. -/
theorem Settings.Stages.withoutBindings (h : s.Stages r subgraphs aggregates before steps done) :
    done.query.body.withoutBindings = before.body :=
  h.reports.injects.keeps (I := fun q => q.body.withoutBindings = before.body)
    (fun _ _ _ _ hq hInject => (inject_withoutBindings hInject).trans hq) h.withoutBindings_before

/-- Before any temporal function is injected, a query selects the variables of the request and then
the aliases of the aggregates. -/
theorem Settings.Stages.projection_before
    (h : s.Stages r subgraphs aggregates before steps done) : before.projection =
      (r.selection ++ (s.groupedCalls .aggregate r).map (·.resultVar)).eraseDups := by
  obtain ⟨modifiers, -, rfl⟩ := h.assembled
  have hNoted := selectedVars_eq h.patterns_built
  obtain ⟨hNone, rfl⟩ | ⟨a, groups, selected, rfl, hComputes⟩ :=
    Aggregation.aggregation_computes h.aggregation
  · rw [Settings.groupedCalls, hNone]
    simpa [FunctionCall.grouped, Settings.extendedQuery, Settings.assembledQuery] using hNoted
  · rw [Settings.groupedCalls, ← hComputes.aliases]
    exact SelectQuery.projection_foldl_project hNoted a.aliases

/-- The selected items of a query. -/
theorem Settings.Stages.projection (h : s.Stages r subgraphs aggregates before steps done) :
    done.query.projection = (r.selection ++ (s.groupedCalls .aggregate r).map (·.resultVar) ++
      aliasesOf steps true).eraseDups :=
  h.reports.injects.projection h.projection_before

/-- **What a query selects.** When a payload lists observables and has a query, the query selects,
each at its first place, the variables among the terms of each observable and the variables of its
specs that are to be selected, then the aliases of the aggregates, then the aliases of the temporal
functions that were injected. No item is selected twice. -/
theorem build_projection_eq (hRead : Request.read payload = .ok r) (hSome : r.observables ≠ [])
    (h : (s.build payload).outcome = .ok q) :
    ∃ subgraphs aggregates before steps done,
      s.Stages r subgraphs aggregates before steps done ∧ done.query = q ∧
      q.projection = (r.selection ++ (s.groupedCalls .aggregate r).map (·.resultVar) ++
        done.injected).eraseDups ∧
      q.projection.Nodup := by
  obtain ⟨subgraphs, aggregates, before, steps, done, hStages, rfl⟩ := build_stages hRead hSome h
  have hProjection := hStages.projection
  rw [← hStages.reports.injected] at hProjection
  exact ⟨subgraphs, aggregates, before, steps, done, hStages, rfl, hProjection,
    hProjection ▸ nodup_eraseDups _⟩

end

/-- The payload selects a station, its name and its value, and one alias of either kind; the station
comes in both observables. -/
theorem build_projection_eq_station :
    ∃ r q, Request.read stationPayload = .ok r ∧ r.observables ≠ [] ∧
      (Settings.standard.build stationPayload).outcome = .ok q ∧
      q.projection = ["?st", "?name", "?v", "?AvgD", "?YearSince"] ∧
      q.projection.Nodup := by
  obtain ⟨q, hq⟩ := exists_of_isOk stationPayload_builds
  obtain ⟨r, hRead, -⟩ := build_eq_ok_iff.mp hq
  have hSome := stationPayload_observables hRead
  obtain ⟨-, -, -, -, -, -, -, -, hNodup⟩ := build_projection_eq hRead hSome hq
  refine ⟨r, q, hRead, hSome, hq, ?_, hNodup⟩
  have hProjection : (Settings.standard.build stationPayload).outcome.toOption.map (·.projection) =
      some ["?st", "?name", "?v", "?AvgD", "?YearSince"] := by decide +kernel
  rw [hq] at hProjection
  exact Option.some.inj hProjection

/-- Whether a value is a text that is a variable. -/
def Json.isVariable : Json → Bool
  | .str v => Kind.acceptsAny [.var] v
  | _ => false

/-- A clause of the payload asks for a temporal function, and another one for an aggregate. -/
theorem stationPayload_asks (category : FunctionCategory) :
    ∃ r o spec v c, Request.read stationPayload = .ok r ∧
      Settings.standard.Asks r category o spec (.str v) c ∧ Kind.acceptsAny [.var] v = true := by
  have hCheck : (Request.read stationPayload).toOption.map (fun r =>
      r.observables.any fun o => (r.specsOf (o.key r.keys)).any fun spec =>
        (Settings.standard.isGeoFunction spec.uri).toOption == some false &&
        spec.var.any Json.isVariable &&
        spec.clauses.any fun c => c.category? == some category) = some true := by
    -- both categories are asked for, which one evaluation each shows
    cases category <;> decide +kernel
  obtain ⟨r, hRead, hAny⟩ := Option.map_eq_some_iff.mp hCheck
  obtain ⟨o, ho, hAny⟩ := List.any_eq_true.mp hAny
  obtain ⟨spec, hSpec, hAny⟩ := List.any_eq_true.mp hAny
  simp only [Bool.and_eq_true, beq_iff_eq, toOption_eq_some_iff, Option.any_eq_true,
    List.any_eq_true] at hAny
  obtain ⟨⟨hPlain, var, hVar, hAccepts⟩, c, hc, hAsks⟩ := hAny
  cases var with
  | str v =>
    exact ⟨r, o, spec, v, c, toOption_eq_some_iff.mp hRead, {
      listed := ho
      attached := hSpec
      plain := hPlain
      bound := hVar
      among := hc
      asks := Clause.category?_eq_some_iff.mp hAsks }, hAccepts⟩
  | _ => cases hAccepts

end SparqlSelect
