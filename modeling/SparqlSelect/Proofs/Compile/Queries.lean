import SparqlSelect.Proofs.Compile.Aggregates
import SparqlSelect.Proofs.Compile.Patterns
import SparqlSelect.Proofs.Query.Subqueries

/-!
# Queries inside a query

The only queries inside the pattern of a query are those of observables with modifiers of their own,
which select everything, and the sub-query of the aggregates. What specs and aggregates write holds
none. So a property of all queries inside a pattern has to be shown of these two.

* `subgraph_queries`, `locationQuery_queries` — patterns without queries.
* `extendedQuery_queries` — the pattern of a query before temporal functions are injected.
* `Group.queries_putBinding` — injecting them brings no queries.
-/

namespace SparqlSelect

section

variable {R : SelectQuery → Prop}

-- ---------------------------------------------------------------------------
-- Patterns without queries
-- ---------------------------------------------------------------------------

/-- A spec of an observable writes no queries. -/
theorem FilterSpec.Writes.queries {s : Settings} {spec : FilterSpec} {subject : String}
    {e : Element} (h : spec.Writes s subject e) : e.Everywhere (Element.QueriesAre R) := by
  cases h with
  | own hBinds he =>
    cases hBinds with
    | unbound _ => cases he
    | bound _ _ =>
      rw [List.mem_singleton.mp he, elementFor]
      split <;> simp
  | place _ | condition _ | bounds _ => simp

/-- A spec of a search by place writes no queries. -/
theorem FilterSpec.Finds.queries {s : Settings} {spec : FilterSpec} {subject : String} {e : Element}
    (h : spec.Finds s subject e) : e.Everywhere (Element.QueriesAre R) := by
  cases h with
  | place _ | condition _ => simp

theorem unionOf_queries {alternatives : List Triple} {e : Element} (h : e ∈ unionOf alternatives) :
    e.Everywhere (Element.QueriesAre R) := by
  unfold unionOf at h
  split at h
  · cases h
  · rw [List.mem_singleton.mp h]
    simp [Triple.branch]

/-- There are no queries in the pattern of an observable. -/
theorem subgraph_queries {s : Settings} {r : Request} {o : Observable} {sub : Subgraph}
    (h : (s.subgraph r o).outcome = .ok sub) : sub.group.Everywhere (Element.QueriesAre R) := by
  obtain ⟨anchor, additions, -, hAdditions, hShape⟩ := subgraph_eq_ok h
  rw [Group.everywhere_iff, hShape, List.forall_mem_append, List.forall_mem_cons]
  refine ⟨⟨by simp, fun e he => ?_⟩, fun e he => unionOf_queries he⟩
  obtain ⟨a, ha, he⟩ := List.mem_flatMap.mp he
  obtain ⟨spec, -, hContributes⟩ := exists_of_forall₂_right hAdditions ha
  exact (hContributes.elements e he).queries

/-- There are no queries in the pattern of a search by place. -/
theorem locationQuery_queries {s : Settings} {r : Request} {q : SelectQuery}
    (h : (s.locationQuery r).outcome = .ok q) : q.body.Everywhere (Element.QueriesAre R) := by
  obtain ⟨p, t, additions, -, -, hAdditions, -, -, hShape, -⟩ := locationQuery_eq_ok h
  rw [Group.everywhere_iff, hShape, List.forall_mem_append, List.forall_mem_append]
  refine ⟨⟨by simp [SensorTriples.elements], fun e he => ?_⟩, fun e he => unionOf_queries he⟩
  obtain ⟨a, ha, he⟩ := List.mem_flatMap.mp he
  obtain ⟨placed, -, hDiscovers⟩ := exists_of_forall₂_right hAdditions ha
  exact (hDiscovers.elements e he).queries

/-- There are no queries in the pattern of the aggregates. -/
theorem Aggregation.Computes.queries {calls selected : List FunctionCall} {groups : List Group}
    {a : Aggregation} (h : Computes calls groups selected a) :
    a.query.body.Everywhere (Element.QueriesAre R) := by
  refine h.everywhere (by simp) (by simp) fun g hg => ?_
  obtain ⟨entry, -, first, more, -, hBranch⟩ := exists_of_forall₂_right h.branches hg
  obtain ⟨anchor, triples, -, hElements⟩ := branch_eq_ok hBranch
  rw [Group.everywhere_iff, hElements, List.forall_mem_map]
  simp

/-- A binding brings no queries into the group of a key. -/
theorem Group.queries_putBinding {g : Group} {origin : Option String} {place : Place} {b : Binding}
    (hR : ∀ q body, R q → R { q with body := body })
    (h : g.Everywhere (Element.QueriesAre R)) :
    (g.updateOrigin origin (·.putBinding place b)).Everywhere (Element.QueriesAre R) :=
  (congruence_queries hR).update (fun _ h => h)
    (fun _ hg => Group.everywhere_putBinding.mpr ⟨hg, Element.queriesAre_bind⟩) g h

-- ---------------------------------------------------------------------------
-- The queries of observables and aggregates
-- ---------------------------------------------------------------------------

/-- The query of an observable selects everything in its pattern. -/
theorem asBranch_queryIs {sub : Subgraph}
    (h : R { SelectQuery.empty with body := sub.group, modifiers := sub.modifiers }) :
    sub.asBranch.QueryIs R := by
  unfold Subgraph.asBranch
  split
  · exact Branch.queryIs_group
  · exact Branch.queryIs_select.mpr h

/-- The queries in the assembled pattern are those of the observables. -/
theorem assemble_queries {subgraphs : List Subgraph}
    (hHeads : ∀ sub ∈ subgraphs, sub.asBranch.QueryIs R)
    (h : ∀ sub ∈ subgraphs, sub.group.Everywhere (Element.QueriesAre R)) :
    (assemble subgraphs).Everywhere (Element.QueriesAre R) := by
  unfold assemble
  split
  · rename_i only
    have hHead := hHeads only (List.mem_singleton_self only)
    have hOnly := h only (List.mem_singleton_self only)
    split
    · exact hOnly
    · simpa [hHead, asBranch_everywhere] using hOnly
  · simpa [asBranch_everywhere] using ⟨hHeads, h⟩

/-- Before any call is injected, the queries in a pattern are those of the observables and of the
aggregates. -/
theorem extendedQuery_queries {s : Settings} {r : Request} {subgraphs : List Subgraph}
    {notes : List Note} {modifiers : List Modifier} {aggregates : Option Aggregation}
    (hSubs : List.Forall₂ (fun o sub => (s.subgraph r o).outcome = .ok sub) r.observables subgraphs)
    (hAggregates : (aggregation (aggregateGroups notes)).outcome = .ok aggregates)
    (hHeads : ∀ sub ∈ subgraphs, sub.asBranch.QueryIs R)
    (hComputed : ∀ a groups selected,
      Aggregation.Computes (Traced.calls .aggregate notes) groups selected a → R a.query) :
    (s.extendedQuery subgraphs notes modifiers aggregates).body.Everywhere
      (Element.QueriesAre R) := by
  have hAssembled : (assemble subgraphs).Everywhere (Element.QueriesAre R) := by
    refine assemble_queries hHeads fun sub hSub => ?_
    obtain ⟨o, -, ho⟩ := exists_of_forall₂_right hSubs hSub
    exact subgraph_queries ho
  rw [body_extendedQuery, Group.everywhere_mk, List.forall_mem_append]
  refine ⟨Group.everywhere_iff.mp hAssembled, fun e he => ?_⟩
  -- the only element that is added is the aggregate's own query
  obtain ⟨-, rfl⟩ | ⟨a, groups, selected, rfl, hComputes⟩ :=
    Aggregation.aggregation_computes hAggregates
  · cases he
  · rw [List.mem_singleton.mp he, Element.everywhere_nested, Element.queriesAre_nested,
      Branch.queryIs_select, Branch.everywhere_select]
    exact ⟨hComputed a groups selected hComputes, hComputes.queries⟩

end

end SparqlSelect
