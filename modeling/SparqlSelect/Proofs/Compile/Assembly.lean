import SparqlSelect.Proofs.Compile.Build
import SparqlSelect.Proofs.Query.Bindings
import SparqlSelect.Proofs.Request.Modifiers

/-!
# How the patterns of the observables stand in a query

Apart from the bindings that are put into it, the pattern of a query is what stands for its
observables and at most one sub-query of aggregates after it. One observable without modifiers gives
its own elements, one with modifiers a sub-query, and several give one union with a branch for each.
No branch is lost, doubled or moved, and modifiers stay with the observable they were given for.

* `modifiersOf_eq_ok` — the modifiers for a sort key and a limit.
* `inject_withoutBindings` — a call changes nothing but bindings.
* `build_keeps_observables` — the query of every payload with observables.
-/

namespace SparqlSelect

-- ---------------------------------------------------------------------------
-- Modifiers
-- ---------------------------------------------------------------------------

/-- The modifiers that a sort key with its direction and a limit ask for, and no others. -/
def modifiersFor (sort : Option (String × Json)) (limit : Option Int) : List Modifier :=
  (sort.map fun (key, direction) => .orderBy [(sortVar key, Direction.of direction)]).toList ++
    (limit.map fun n => .limit (.int n)).toList

theorem modifiersOf_eq_ok {sort : Option (String × Json)} {limit : Option Int}
    {modifiers : List Modifier} (h : modifiersOf sort limit = .ok modifiers) :
    modifiers = modifiersFor sort limit := by
  obtain ⟨order, hOrder, h⟩ := bind_eq_ok_iff.mp h
  cases h
  cases sort with
  | none =>
    cases hOrder
    rfl
  | some entry =>
    obtain ⟨key, direction⟩ := entry
    simp only [sortModifiers, sortModifier, map_eq_ok_iff, bind_eq_ok_iff,
      Kind.checkText_eq_ok_iff, Except.ok.injEq] at hOrder
    obtain ⟨_, ⟨_, ⟨rfl, -⟩, rfl⟩, rfl⟩ := hOrder
    rfl

theorem modifiersFor_eq_nil_iff {sort : Option (String × Json)} {limit : Option Int} :
    modifiersFor sort limit = [] ↔ sort = none ∧ limit = none := by
  cases sort <;> cases limit <;> simp [modifiersFor]

-- ---------------------------------------------------------------------------
-- Observables with their patterns
-- ---------------------------------------------------------------------------

/-- Whether an observable has no modifier of its own. -/
def Observable.IsPlain (o : Observable) : Prop := o.sort? = none ∧ o.limit = none

instance (o : Observable) : Decidable o.IsPlain := inferInstanceAs (Decidable (_ ∧ _))

/-- An observable and its pattern. -/
structure Part where
  observable : Observable
  pattern : Group

/-- The branch of an observable: its pattern by itself, or else a query that selects everything in
the pattern and carries the modifiers of the observable and nothing more. -/
def Part.branch (p : Part) : Branch :=
  if p.observable.IsPlain then .group p.pattern
  else .select {
    prefixes := []
    projection := []
    body := p.pattern
    modifiers := modifiersFor p.observable.sort? p.observable.limit
    distinct := false }

/-- What stands in a query for its observables, as the origin and the elements of a group. -/
inductive Arranged : List Part → Option String → List Element → Prop
  | inlined (p : Part) : p.observable.IsPlain → Arranged [p] p.pattern.origin p.pattern.elements
  | wrapped (p : Part) : ¬ p.observable.IsPlain → Arranged [p] none [.nested p.branch]
  | united (parts : List Part) : 2 ≤ parts.length →
    Arranged parts none [.union (parts.map Part.branch)]

/-- A part belongs to an item of the observables of a request: it is the observable that was read
from the item, with the pattern that is built for it, which has its key and no binding. -/
structure Part.IsOf (s : Settings) (r : Request) (item : Json) (p : Part) : Prop where
  read : ∃ path, Observable.read item path = .ok p.observable
  pattern : (s.subgraph r p.observable).outcome.map (·.group) = .ok p.pattern
  origin : p.pattern.origin = some (p.observable.key r.keys)
  unbound : p.pattern.withoutBindings = p.pattern
  plain : p.observable.IsPlain ↔
    enabledModifier? item "orderBy" = none ∧ enabledModifier? item "limit" = none

-- ---------------------------------------------------------------------------
-- The pattern of a query
-- ---------------------------------------------------------------------------

/-- A call changes nothing in a pattern but bindings. -/
theorem inject_withoutBindings {q q' : SelectQuery} {c : FunctionCall} {done : Bool}
    (h : (q.inject c).outcome = .ok (q', done)) :
    q'.body.withoutBindings = q.body.withoutBindings := by
  obtain ⟨rfl, -⟩ | ⟨g, -, -, ⟨-, rfl⟩ | ⟨place, b, -, -, -, -, rfl⟩⟩ := inject_eq_ok h
  · rfl
  · rw [SelectQuery.body_project]
  · rw [SelectQuery.body_project]
    -- wherever the binding was put, it is taken out again
    have hPut : ∀ g : Group, g.withoutBindings = (g.putBinding place b).withoutBindings := by
      intro g
      cases place with
      | after i => exact (Group.withoutBindings_insertAfter g i b).symm
      | atEnd =>
        obtain ⟨origin, elements⟩ := g
        simp [Group.putBinding, Group.add, Group.withoutBindings_mk, Element.withoutBindings]
    exact (congruence_withoutBindings.update (fun _ => rfl) hPut q.body).symm

/-- An observable whose pattern was built has the branch that its pattern and its modifiers give. -/
theorem asBranch_eq {s : Settings} {r : Request} {o : Observable} {sub : Subgraph}
    (h : (s.subgraph r o).outcome = .ok sub) :
    (sub.modifiers = [] ↔ o.IsPlain) ∧ sub.asBranch = Part.branch ⟨o, sub.group⟩ := by
  have hModifiers : sub.modifiers = modifiersFor o.sort? o.limit :=
    modifiersOf_eq_ok (subgraph_drafted h).2.2
  have hPlain : sub.modifiers = [] ↔ o.IsPlain := by
    rw [hModifiers, modifiersFor_eq_nil_iff]
    rfl
  -- with modifiers of its own the subgraph becomes a query, without any it stays a group
  refine ⟨hPlain, ?_⟩
  unfold Subgraph.asBranch Part.branch
  by_cases ho : o.IsPlain
  · simp only [hPlain.mpr ho, ho, List.isEmpty_nil, if_true]
  · have hGiven : ¬ sub.modifiers.isEmpty = true := fun hNil =>
      ho (hPlain.mp (List.isEmpty_iff.mp hNil))
    rw [if_neg hGiven, if_neg ho, hModifiers, SelectQuery.empty]

/-- The observables of a request with the patterns that were built for them. -/
def partsOf (observables : List Observable) (subgraphs : List Subgraph) : List Part :=
  List.zipWith (fun o sub => ⟨o, sub.group⟩) observables subgraphs

section Parts

variable {s : Settings} {r : Request} {observables : List Observable} {subgraphs : List Subgraph}

theorem partsOf_isOf {items : List Json}
    (hRead : List.Forall₂ (fun item o => ∃ path, Observable.read item path = .ok o) items
      observables)
    (hSubs : List.Forall₂ (fun o sub => (s.subgraph r o).outcome = .ok sub) observables subgraphs) :
    List.Forall₂ (Part.IsOf s r) items (partsOf observables subgraphs) := by
  -- induction on the observables that were read, along the parts they gave
  induction hRead generalizing subgraphs with
  | nil => exact .nil
  | cons hItem _ ih =>
    cases hSubs with
    | cons hSub hRest =>
      refine .cons ?_ (ih hRest)
      obtain ⟨hOrigin, hDrafted, -⟩ := subgraph_drafted hSub
      obtain ⟨path, hPath⟩ := hItem
      obtain ⟨hLimit, hSort⟩ := Observable.read_modifiers hPath
      exact {
        read := ⟨path, hPath⟩
        pattern := by rw [hSub]; rfl
        origin := hOrigin
        unbound := Group.withoutBindings_eq_self (fun _ h => h) _ hDrafted
        plain := by
          rw [Observable.IsPlain, ← Option.isNone_iff_eq_none, ← Option.isNone_iff_eq_none,
            ← Option.isNone_iff_eq_none, ← Option.isNone_iff_eq_none, ← Option.not_isSome,
            ← Option.not_isSome, ← Option.not_isSome, ← Option.not_isSome, hLimit, hSort] }

theorem map_branch_partsOf
    (hSubs : List.Forall₂ (fun o sub => (s.subgraph r o).outcome = .ok sub) observables subgraphs) :
    (partsOf observables subgraphs).map Part.branch = subgraphs.map Subgraph.asBranch := by
  induction hSubs with
  | nil => rfl
  | cons hSub _ ih => exact congrArg₂ List.cons (asBranch_eq hSub).2.symm ih

/-- The assembled pattern has one of the three shapes, whatever the number of observables. -/
theorem arranged_assemble (hSome : observables ≠ [])
    (hSubs : List.Forall₂ (fun o sub => (s.subgraph r o).outcome = .ok sub) observables subgraphs) :
    Arranged (partsOf observables subgraphs) (assemble subgraphs).origin
      (assemble subgraphs).elements := by
  have hBranches := map_branch_partsOf hSubs
  -- none, exactly one, or several
  cases hSubs with
  | nil => exact absurd rfl hSome
  | cons hSub hRest =>
    cases hRest with
    | nil =>
      obtain ⟨hPlain, hBranch⟩ := asBranch_eq hSub
      rw [assemble]
      split
      · rename_i hNone
        exact .inlined _ (hPlain.mp (List.isEmpty_iff.mp hNone))
      · rename_i hGiven
        rw [hBranch]
        exact .wrapped _ fun ho => hGiven (List.isEmpty_iff.mpr (hPlain.mpr ho))
    | cons _ _ =>
      rw [assemble, ← hBranches]
      · exact .united _ (by simp [partsOf])
      · simp

end Parts

/-- **Observables keep their places and their modifiers.** When a payload lists some observables
and has a query, the pattern of the query without its bindings is what stands for the observables
in their order, followed by the sub-query of the aggregates if there are any. All solutions are
sorted and limited exactly as the request says. -/
theorem build_keeps_observables {s : Settings} {payload : Json} {items : List Json}
    {q : SelectQuery} (hItems : payload.get "observables" = .ok (.arr items)) (hSome : items ≠ [])
    (h : (s.build payload).outcome = .ok q) :
    ∃ r parts origin elements aggregates,
      Request.read payload = .ok r ∧
      List.Forall₂ (Part.IsOf s r) items parts ∧
      Arranged parts origin elements ∧
      (aggregation (aggregateGroups (r.observables.mapM (s.subgraph r)).notes)).outcome =
        .ok aggregates ∧
      q.body.withoutBindings =
        ⟨origin, elements ++ (aggregates.map fun a => .nested (.select a.query)).toList⟩ ∧
      q.modifiers = modifiersFor r.sort? r.limit := by
  obtain ⟨r, hRead, hr⟩ := build_eq_ok_iff.mp h
  have hObservables := Request.read_observables hItems hRead
  have hNonempty : r.observables ≠ [] := by
    intro hNil
    rw [hNil, List.forall₂_nil_right_iff] at hObservables
    exact hSome hObservables
  obtain ⟨subgraphs, hSubs, ⟨-, hr⟩ | ⟨hNil, -⟩⟩ := buildRequest_eq_ok hr
  · replace hSubs := subgraphs_ok hSubs
    obtain ⟨modifiers, agg, done, hModifiers, -, hAgg, hDone, rfl⟩ := observableQuery_eq_ok hr
    refine ⟨r, partsOf r.observables subgraphs, _, _, agg, hRead, partsOf_isOf hObservables hSubs,
      arranged_assemble hNonempty hSubs, hAgg, ?_⟩
    -- what every call keeps: the pattern apart from bindings, and the modifiers
    obtain ⟨hBody, hSame⟩ := withTemporals_keeps
      (I := fun p => p.body.withoutBindings =
          (s.extendedQuery subgraphs _ modifiers agg).body.withoutBindings ∧
        p.modifiers = modifiers)
      (fun c _ p p' done hp hInject =>
        ⟨(inject_withoutBindings hInject).trans hp.1, (inject_same hInject).2.trans hp.2⟩)
      ⟨rfl, modifiers_extendedQuery ..⟩ hDone
    rw [Group.withoutBindings_eq_self (fun _ h => h) _ (extended_drafted hSubs hAgg),
      body_extendedQuery] at hBody
    exact ⟨hBody, hSame.trans (modifiersOf_eq_ok hModifiers)⟩
  · rw [hNil] at hSubs
    exact absurd (List.forall₂_nil_right_iff.mp (subgraphs_ok hSubs)) hNonempty

theorem stationPayload_observables {r : Request} (h : Request.read stationPayload = .ok r) :
    r.observables ≠ [] := by
  intro hNil
  have hItems := Request.read_observables rfl h
  rw [hNil] at hItems
  cases hItems

/-- The two observables of the payload give one union of two branches. -/
theorem build_keeps_observables_station :
    ∃ q, (Settings.standard.build stationPayload).outcome = .ok q ∧
      ∃ first second last,
        q.body.withoutBindings =
          ⟨none, .union [Part.branch first, Part.branch second] :: last⟩ := by
  obtain ⟨q, hq⟩ := exists_of_isOk stationPayload_builds
  obtain ⟨r, parts, origin, elements, aggregates, -, hParts, hArranged, -, hBody, -⟩ :=
    build_keeps_observables rfl (by simp) hq
  refine ⟨q, hq, ?_⟩
  cases hParts with
  | cons _ hRest =>
    cases hRest with
    | cons _ hNil =>
      cases hNil
      cases hArranged
      exact ⟨_, _, _, hBody⟩

end SparqlSelect
