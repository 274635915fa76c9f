import SparqlSelect.Proofs.Compile.Projection
import SparqlSelect.Proofs.Compile.Queries
import SparqlSelect.Proofs.Query.Origins

/-!
# No aggregate is lost

All aggregates are computed in one query inside the pattern, which is the only one there that does
not select everything. It stands by itself at the end of the pattern. A call is left out of it only
if a call before it has the same item, and then both have the same alias; so each call that is asked
for has its item in that query and its alias outside of it, and has both once. What is injected
afterwards brings bindings and no queries, and changes nothing that a query inside the pattern
selects.

* `Group.subqueries_withoutBindings` — queries do not depend on bindings.
* `Settings.Stages.subqueries_before` — the queries before any temporal function is injected.
* `build_computes_aggregates` — every aggregate of every payload with observables.
-/

namespace SparqlSelect

-- ---------------------------------------------------------------------------
-- Queries without bindings
-- ---------------------------------------------------------------------------

/-- The queries that what is left of an element holds are what is left of its queries. -/
theorem Element.ownQueries_withoutBindings (e : Element) :
    e.withoutBindings.flatMap Element.ownQueries =
      e.ownQueries.map SelectQuery.withoutBindings := by
  have hBranch (b : Branch) :
      b.withoutBindings.query? = b.query?.map SelectQuery.withoutBindings := by
    cases b <;> rfl
  cases e with
  | triple t | filter e | bind b | optional g => rfl
  | union branches =>
    rw [Element.withoutBindings, Branch.allWithoutBindings_eq_map, List.flatMap_singleton,
      Element.ownQueries, Element.ownQueries, List.filterMap_map, List.map_filterMap]
    exact congrArg (List.filterMap · branches) (funext hBranch)
  | nested b => cases b <;> rfl

/-- The queries in what is left of a group are what is left of its queries. -/
theorem Group.subqueries_withoutBindings (g : Group) :
    g.withoutBindings.subqueries = g.subqueries.map SelectQuery.withoutBindings := by
  rw [Group.subqueries, Group.subqueries, Group.all_withoutBindings, List.flatMap_map,
    List.map_flatMap]
  refine List.flatMap_congr fun h _ => ?_
  obtain ⟨origin, elements⟩ := h
  rw [Group.withoutBindings_mk, List.flatMap_assoc, List.map_flatMap]
  exact List.flatMap_congr fun e _ => Element.ownQueries_withoutBindings e

theorem SelectQuery.selectsAll_withoutBindings (q : SelectQuery) :
    q.withoutBindings.selectsAll = q.selectsAll := by
  rw [SelectQuery.withoutBindings_eq]
  rfl

/-- The queries inside a group are those of its elements, and those inside them. -/
theorem Group.subqueries_eq (g : Group) : g.subqueries =
    g.elements.flatMap Element.ownQueries ++ g.elements.flatMap fun e =>
      e.groups.flatMap fun h => h.elements.flatMap Element.ownQueries := by
  rw [Group.subqueries, Group.all_eq, List.flatMap_cons, List.flatMap_assoc]

-- ---------------------------------------------------------------------------
-- The query of the aggregates
-- ---------------------------------------------------------------------------

section

variable {s : Settings} {r : Request} {subgraphs : List Subgraph} {before : SelectQuery}
  {a : Aggregation} {steps : List (FunctionCall × Bool)} {done : Injection}

/-- The queries in the assembled pattern select everything. -/
theorem assemble_selectsAll
    (hSubs : List.Forall₂ (fun o sub => (s.subgraph r o).outcome = .ok sub) r.observables
      subgraphs) : ∀ q ∈ (assemble subgraphs).subqueries, q.selectsAll = true := by
  refine Group.forall_subqueries_iff.mpr (assemble_queries (fun sub _ => ?_) fun sub hSub => ?_)
  · exact asBranch_queryIs rfl
  · obtain ⟨o, -, ho⟩ := exists_of_forall₂_right hSubs hSub
    exact subgraph_queries ho

/-- Before any temporal function is injected, the query of the aggregates is the only one inside the
pattern that does not select everything. -/
theorem Settings.Stages.subqueries_before {calls selected : List FunctionCall}
    {groups : List Group} (h : s.Stages r subgraphs (some a) before steps done)
    (hComputes : Aggregation.Computes calls groups selected a) (hSome : calls ≠ []) :
    before.body.subqueries.filter (!·.selectsAll) = [a.query] := by
  obtain ⟨modifiers, -, rfl⟩ := h.assembled
  -- the other queries select everything, and inside this one there are none
  have hOthers := assemble_selectsAll h.patterns
  rw [Group.subqueries_eq, List.forall_mem_append] at hOthers
  have hInside : a.query.body.subqueries = [] :=
    List.eq_nil_iff_forall_not_mem.mpr
      (Group.forall_subqueries_iff.mpr (hComputes.queries (R := fun _ => False)))
  have hItems : a.query.selectsAll = false := by
    obtain ⟨c, hc⟩ := List.exists_mem_of_ne_nil calls hSome
    have hItem : c.selectItem ∈ a.query.projection := by
      rw [hComputes.projection, List.mem_eraseDups]
      exact List.mem_map_of_mem (FunctionCall.mem_flatMap_grouped.mpr hc)
    rw [SelectQuery.selectsAll, List.isEmpty_eq_false_iff]
    exact List.ne_nil_of_mem hItem
  have hNone {queries : List SelectQuery} (hAll : ∀ q ∈ queries, q.selectsAll = true) :
      queries.filter (!·.selectsAll) = [] :=
    List.filter_eq_nil_iff.mpr fun q hq => by simp [hAll q hq]
  have hLast : (Branch.select a.query).groups.flatMap
      (fun h => h.elements.flatMap Element.ownQueries) = a.query.body.subqueries := by
    rw [Branch.groups, SelectQuery.groups_eq]
    rfl
  rw [body_extendedQuery, Group.subqueries_eq]
  simp [hNone hOthers.1, hNone hOthers.2, Element.ownQueries, Branch.query?, Element.groups, hLast,
    hInside, hItems]

/-- The query of the aggregates stands by itself in the pattern, with all bindings put into it. -/
theorem Settings.Stages.nested_of_aggregates
    (h : s.Stages r subgraphs (some a) before steps done) :
    ∃ sub, .nested (.select sub) ∈ done.query.body.elements ∧ sub.withoutBindings = a.query := by
  obtain ⟨modifiers, -, hBefore⟩ := h.assembled
  have hLast : .nested (.select a.query) ∈ done.query.body.withoutBindings.elements := by
    rw [h.withoutBindings, hBefore, body_extendedQuery]
    simp
  generalize done.query.body = body at hLast ⊢
  obtain ⟨origin, elements⟩ := body
  rw [Group.withoutBindings_mk] at hLast
  obtain ⟨e, he, hLeft⟩ := List.mem_flatMap.mp hLast
  -- only a sub-query is left as one when the bindings are taken out
  cases e with
  | nested b =>
    cases b with
    | select sub =>
      rw [Element.withoutBindings, Branch.withoutBindings, List.mem_singleton] at hLeft
      exact ⟨sub, he, (Branch.select.inj (Element.nested.inj hLeft)).symm⟩
    | group g => simp [Element.withoutBindings, Branch.withoutBindings] at hLeft
  | _ => simp [Element.withoutBindings] at hLeft

/-- **No aggregate is lost.** When a payload has a query and a clause of a spec of an observable
asks for an aggregate of a variable, one query stands in the pattern by itself that does not select
everything, and no other one is inside the pattern. It selects the item of the aggregate once, and
the query itself selects the alias once. -/
theorem build_computes_aggregates {payload : Json} {q : SelectQuery} {o : Observable}
    {spec : FilterSpec} {var : Json} {c : Clause} (hRead : Request.read payload = .ok r)
    (hAsks : s.Asks r .aggregate o spec var c) (h : (s.build payload).outcome = .ok q) :
    let call := o.call (o.key r.keys) .aggregate spec var c
    ∃ sub, .nested (.select sub) ∈ q.body.elements ∧
      q.body.subqueries.filter (!·.selectsAll) = [sub] ∧
      sub.projection.count call.selectItem = 1 ∧ q.projection.count call.resultVar = 1 := by
  intro call
  obtain ⟨subgraphs, aggregates, before, steps, done, hStages, rfl⟩ :=
    build_stages hRead (List.ne_nil_of_mem hAsks.listed) h
  have hRequested := hAsks.mem_requested
  have hCall : call ∈ s.groupedCalls .aggregate r :=
    FunctionCall.mem_flatMap_grouped.mpr hRequested
  obtain ⟨hNone, -⟩ | ⟨a, groups, selected, rfl, hComputes⟩ :=
    Aggregation.aggregation_computes hStages.aggregation
  · rw [hNone] at hRequested
    cases hRequested
  -- the pattern apart from bindings is the one before, so one query in it selects something else
  have hQueries : (done.query.body.subqueries.filter (!·.selectsAll)).map
      SelectQuery.withoutBindings = [a.query] := by
    rw [← hStages.subqueries_before hComputes (List.ne_nil_of_mem hRequested),
      ← hStages.withoutBindings, Group.subqueries_withoutBindings, List.filter_map]
    refine congrArg _ (List.filter_congr fun q _ => ?_)
    rw [Function.comp_apply, SelectQuery.selectsAll_withoutBindings]
  obtain ⟨sub, hSub, hSame⟩ := List.map_eq_singleton_iff.mp hQueries
  have hThere : .nested (.select sub) ∈ done.query.body.elements := by
    obtain ⟨found, hFound, hLeft⟩ := hStages.nested_of_aggregates
    have hAmong : found ∈ done.query.body.subqueries.filter (!·.selectsAll) := by
      refine List.mem_filter.mpr ⟨?_, ?_⟩
      · rw [Group.subqueries_eq]
        exact List.mem_append_left _ (List.mem_flatMap.mpr
          ⟨_, hFound, by simp [Element.ownQueries, Branch.query?]⟩)
      · rw [← SelectQuery.selectsAll_withoutBindings, hLeft, ← hSame,
          SelectQuery.selectsAll_withoutBindings]
        have hItems : sub ∈ done.query.body.subqueries.filter (!·.selectsAll) := by simp [hSub]
        exact (List.mem_filter.mp hItems).2
    rw [hSub, List.mem_singleton] at hAmong
    exact hAmong ▸ hFound
  refine ⟨sub, hThere, hSub, ?_, ?_⟩
  · have hProjection : sub.projection = a.query.projection := by
      rw [← hSame, SelectQuery.withoutBindings_eq]
    rw [hProjection, hComputes.projection]
    exact count_eraseDups_of_mem (List.mem_map_of_mem hCall)
  · rw [hStages.projection]
    exact count_eraseDups_of_mem (List.mem_append_left _ (List.mem_append_right _
      (List.mem_map_of_mem hCall)))

end

/-- The average in the payload is computed once and selected once. -/
theorem build_computes_aggregates_station :
    ∃ r o spec v c q, Request.read stationPayload = .ok r ∧
      Settings.standard.Asks r .aggregate o spec (.str v) c ∧
      (Settings.standard.build stationPayload).outcome = .ok q ∧
      ∃ sub, q.body.subqueries.filter (!·.selectsAll) = [sub] ∧
        sub.projection.count
          (o.call (o.key r.keys) .aggregate spec (.str v) c).selectItem = 1 := by
  obtain ⟨q, hq⟩ := exists_of_isOk stationPayload_builds
  obtain ⟨r, o, spec, v, c, hRead, hAsks, -⟩ := stationPayload_asks .aggregate
  obtain ⟨sub, -, hOnly, hItem, -⟩ := build_computes_aggregates hRead hAsks hq
  exact ⟨r, o, spec, v, c, q, hRead, hAsks, hq, sub, hOnly, hItem⟩

end SparqlSelect
