import SparqlSelect.Proofs.Compile.Fragments
import SparqlSelect.Proofs.Compile.Queries
import SparqlSelect.Proofs.Compile.Scope
import SparqlSelect.Proofs.Fragment.Alias

/-!
# What is selected is of a kind for it

A query may select variables and assignments. The variables that were noted are checked before they
are selected, the items of the aggregates when their sub-query is made, and the alias of a temporal
function as the variable of its binding. The alias of an aggregate is checked only as a part of its
item. So whatever a query inside the pattern selects is of a kind for it, and so is what the query
itself selects, but for aliases of aggregates whose function has brackets in its name.

* `Computes.alias_accepted_or`, `Computes.plain_of_aliases` — the aliases of the aggregates.
* `extendedQuery_selection` — what is selected before any call is injected.
* `inject_selection` — what a call keeps.
* `build_selection_fits` — the query of every payload with observables.
-/

namespace SparqlSelect

/-- Everything that a query selects is a variable or an assignment. -/
def SelectQuery.SelectionFits (q : SelectQuery) : Prop :=
  ∀ item ∈ q.projection, Kind.acceptsAny Kind.forSelect item = true

instance (q : SelectQuery) : Decidable q.SelectionFits :=
  inferInstanceAs (Decidable (∀ item ∈ q.projection, Kind.acceptsAny Kind.forSelect item = true))

/-- What is accepted as a variable may be selected. -/
theorem Kind.forSelect_of_var {v : String} (h : Kind.acceptsAny [.var] v = true) :
    Kind.acceptsAny Kind.forSelect v = true :=
  acceptsAny_forSelect_iff.mpr (.inl (acceptsAny_var_iff.mp h))

/-- The sub-query of the aggregates selects items that were accepted. -/
theorem Aggregation.Computes.selectionFits {calls selected : List FunctionCall}
    {groups : List Group} {a : Aggregation} (h : Computes calls groups selected a) :
    a.query.SelectionFits := by
  rw [h.shape]
  intro item hItem
  obtain ⟨c, hc, rfl⟩ := List.mem_map.mp hItem
  exact (h.chosen.sound c hc).2

section

variable {calls selected : List FunctionCall} {groups : List Group} {a : Aggregation}

/-- An alias of the aggregates is of a kind for it, or its function has an opening bracket in its
name. -/
theorem Aggregation.Computes.alias_accepted_or {v : String} (h : Computes calls groups selected a)
    (hv : v ∈ a.aliases) : Kind.acceptsAny Kind.forSelect v = true ∨
      ∃ c ∈ calls, '(' ∈ c.function.toList ∧ v = c.resultVar := by
  rw [h.shape] at hv
  obtain ⟨c, hc, rfl⟩ := List.mem_map.mp hv
  obtain ⟨hCall, hAccepts⟩ := h.chosen.sound c hc
  by_cases hBracket : '(' ∈ c.function.toList
  · exact .inr ⟨c, hCall, hBracket, rfl⟩
  · exact .inl ((FunctionCall.resultVar_accepted_iff hAccepts (h.var hCall)).mpr hBracket)

/-- If all aliases of the aggregates are of a kind for it, no function that was asked for has an
opening bracket in its name: a call that is left out has the same item as another. -/
theorem Aggregation.Computes.plain_of_aliases (h : Computes calls groups selected a)
    (hAliases : ∀ v ∈ a.aliases, Kind.acceptsAny Kind.forSelect v = true) :
    ∀ c ∈ calls, '(' ∉ c.function.toList := by
  intro c hc
  obtain ⟨d, hd, hSame⟩ := h.chosen.complete c hc
  refine FunctionCall.bracket_not_mem_function hSame (hAliases _ ?_)
  rw [h.shape]
  exact List.mem_map_of_mem hd

end

-- ---------------------------------------------------------------------------
-- One call
-- ---------------------------------------------------------------------------

/-- Every fragment of a query fits, what the queries inside it select is of a kind for it, and so is
what it selects itself but for some aliases, all of which it selects. -/
structure SelectQuery.SelectsBut (aliases : List String) (q : SelectQuery) : Prop where
  fits : q.body.Everywhere Element.Fits
  queries : q.body.Everywhere (Element.QueriesAre SelectionFits)
  items : ∀ item ∈ q.projection, Kind.acceptsAny Kind.forSelect item = true ∨ item ∈ aliases
  aliases : aliases ⊆ q.projection

section

variable {aliases : List String} {q q' : SelectQuery} {c : FunctionCall} {done : Bool}

/-- What is of a kind for it may be selected. -/
theorem SelectQuery.SelectsBut.project {v : String} (h : q.SelectsBut aliases)
    (hv : Kind.acceptsAny Kind.forSelect v = true) : (q.project v).SelectsBut aliases where
  fits := (body_project q v).symm ▸ h.fits
  queries := (body_project q v).symm ▸ h.queries
  items item hItem := by
    rcases mem_projection_project.mp hItem with hItem | rfl
    · exact h.items item hItem
    · exact .inl hv
  aliases := fun _ ha => mem_projection_project.mpr (.inl (h.aliases ha))

/-- A binding that fits may be put into the group of a key. -/
theorem SelectQuery.SelectsBut.putBinding {key : String} {place : Place} {b : Binding}
    (h : q.SelectsBut aliases) (hb : b.Fits) :
    SelectsBut aliases
      { q with body := q.body.updateOrigin (some key) (·.putBinding place b) } where
  fits := h.fits.putBinding (fun _ => trivial) (fun _ => trivial) (fun _ => trivial) hb
  queries := Group.queries_putBinding (fun _ _ hq => hq) h.queries
  items := h.items
  aliases := h.aliases

/-- The alias of a call that is selected is the variable of a binding, which has been checked. -/
theorem inject_selection (h : q.SelectsBut aliases)
    (hInject : (q.inject c).outcome = .ok (q', done)) : q'.SelectsBut aliases := by
  obtain ⟨rfl, -⟩ | ⟨g, hFound, -, ⟨hAny, rfl⟩ | ⟨place, b, -, -, rfl, hFits, rfl⟩⟩ :=
    inject_eq_ok hInject
  · exact h
  · exact h.project (Kind.forSelect_of_var (var_of_bound h.fits hFound hAny))
  · exact (h.putBinding hFits).project (Kind.forSelect_of_var hFits.var)

end

-- ---------------------------------------------------------------------------
-- The query of the observables
-- ---------------------------------------------------------------------------

section

variable {s : Settings} {r : Request} {subgraphs : List Subgraph} {notes : List Note}
  {modifiers : List Modifier} {aggregates : Option Aggregation}

/-- Before any call is injected, only the aliases of the aggregates have not been checked. -/
theorem extendedQuery_selection
    (hSubs : List.Forall₂ (fun o sub => (s.subgraph r o).outcome = .ok sub) r.observables subgraphs)
    (hNoted : ∀ v ∈ Traced.selectedVars notes, Kind.acceptsAny Kind.forSelect v = true)
    (hAggregates : (aggregation (aggregateGroups notes)).outcome = .ok aggregates) :
    (s.extendedQuery subgraphs notes modifiers aggregates).SelectsBut
      ((aggregates.map (·.aliases)).getD []) where
  fits := (extended_drafted hSubs hAggregates).mono fun _ => Element.IsDrafted.fits
  queries := by
    refine extendedQuery_queries hSubs hAggregates
      (fun sub _ => asBranch_queryIs fun item hItem => ?_) fun a groups selected hComputes =>
        hComputes.selectionFits
    cases hItem
  items item hItem := by
    -- a selected variable was checked when it was noted
    rcases mem_projection_extendedQuery.mp hItem with hItem | ⟨a, rfl, hAlias⟩
    · exact .inl (hNoted item hItem)
    · exact .inr hAlias
  aliases := by
    intro v hv
    refine mem_projection_extendedQuery.mpr (.inr ?_)
    cases aggregates with
    | none => cases hv
    | some a => exact ⟨a, rfl, hv⟩

/-- **What is selected is of a kind for it.** When a payload lists observables and has a query,
whatever the query selects is a variable or an assignment, or else it is the alias of an aggregate
whose function has an opening bracket in its name. There is no such alias exactly if no aggregate
has such a function. What the queries inside the pattern select is a variable or an assignment in
any case. -/
theorem build_selection_fits {payload : Json} {q : SelectQuery}
    (hRead : Request.read payload = .ok r) (hSome : r.observables ≠ [])
    (h : (s.build payload).outcome = .ok q) :
    (∀ item ∈ q.projection, Kind.acceptsAny Kind.forSelect item = true ∨
      ∃ c ∈ s.aggregateCalls r, '(' ∈ c.function.toList ∧ item = c.resultVar) ∧
    (q.SelectionFits ↔ ∀ c ∈ s.aggregateCalls r, '(' ∉ c.function.toList) ∧
    ∀ sub ∈ q.body.subqueries, sub.SelectionFits := by
  obtain ⟨subgraphs, modifiers, aggregates, done, hSubs, hNoted, hAggregates, hDone, rfl⟩ :=
    build_observables_eq_ok hRead hSome h
  have hSelects := withTemporals_keeps
    (I := SelectQuery.SelectsBut ((aggregates.map (·.aliases)).getD []))
    (fun c _ q q' done hq hInject => inject_selection hq hInject)
    (extendedQuery_selection hSubs hNoted hAggregates) hDone
  have hQueries := Group.forall_subqueries_iff.mpr hSelects.queries
  obtain ⟨hNone, rfl⟩ | ⟨a, groups, selected, rfl, hComputes⟩ :=
    Aggregation.aggregation_computes hAggregates
  · -- without aggregates there is no alias that was not checked
    have hFits : done.query.SelectionFits := fun item hItem =>
      (hSelects.items item hItem).resolve_right List.not_mem_nil
    refine ⟨fun item hItem => .inl (hFits item hItem), ⟨fun _ c hc => ?_, fun _ => hFits⟩, hQueries⟩
    rw [Settings.aggregateCalls, hNone] at hc
    cases hc
  have hItems : ∀ item ∈ done.query.projection, Kind.acceptsAny Kind.forSelect item = true ∨
      ∃ c ∈ s.aggregateCalls r, '(' ∈ c.function.toList ∧ item = c.resultVar := fun item hItem =>
    (hSelects.items item hItem).elim .inl hComputes.alias_accepted_or
  refine ⟨hItems, ⟨fun hFits => ?_, fun hPlain item hItem => ?_⟩, hQueries⟩
  · exact hComputes.plain_of_aliases fun v hv => hFits v (hSelects.aliases hv)
  · refine (hItems item hItem).resolve_right ?_
    rintro ⟨c, hc, hBracket, -⟩
    exact hPlain c hc hBracket

end

/-- The average in the payload has a plain name, so everything that is selected is of a kind for
it. -/
theorem build_selection_fits_station :
    ∃ r q, Request.read stationPayload = .ok r ∧ r.observables ≠ [] ∧
      (Settings.standard.build stationPayload).outcome = .ok q ∧ q.SelectionFits ∧
      ∀ sub ∈ q.body.subqueries, sub.SelectionFits := by
  obtain ⟨q, hq⟩ := exists_of_isOk stationPayload_builds
  obtain ⟨r, hRead, hCalls⟩ : ∃ r, Request.read stationPayload = .ok r ∧
      ((Settings.standard.aggregateCalls r).all fun c =>
        !c.function.toList.contains '(') = true := by
    obtain ⟨r, hr, hCalls⟩ := Option.map_eq_some_iff.mp (show
      (Request.read stationPayload).toOption.map (fun r => (Settings.standard.aggregateCalls r).all
        fun c => !c.function.toList.contains '(') = some true by decide +kernel)
    exact ⟨r, toOption_eq_some_iff.mp hr, hCalls⟩
  have hSome := stationPayload_observables hRead
  obtain ⟨-, hFits, hQueries⟩ := build_selection_fits hRead hSome hq
  exact ⟨r, q, hRead, hSome, hq, hFits.mpr (by simpa using hCalls), hQueries⟩

/-- An average that brings brackets and an alias of its own. -/
def aliasPayload : Json := .obj [
  ("observables", .arr [
    .obj [("subject", .str "?s"), ("predicate", .str "x:p"), ("object", .str "?o")]]),
  ("filters", .obj [("x:p", .arr [
    .obj [("uri", .str "x:q"), ("predicateName", .str "?v"),
      ("filters", .arr [clauseOf "function" [("value", .str "avg(?t) as ?b")]])]])])]

/-- The item of that average is accepted, and its alias is selected although it is no variable. -/
theorem build_selection_unfit :
    ∃ q, (Settings.standard.build aliasPayload).outcome = .ok q ∧
      q.projection = ["?s", "?o", "?Avg(?t) as ?bV"] ∧ ¬ q.SelectionFits := by
  obtain ⟨q, hq, hProjection⟩ := Option.map_eq_some_iff.mp (show
    (Settings.standard.build aliasPayload).outcome.toOption.map (·.projection) =
      some ["?s", "?o", "?Avg(?t) as ?bV"] by decide +kernel)
  refine ⟨q, toOption_eq_some_iff.mp hq, hProjection, ?_⟩
  rw [SelectQuery.SelectionFits, hProjection]
  decide +kernel

end SparqlSelect
