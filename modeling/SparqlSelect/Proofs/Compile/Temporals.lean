import SparqlSelect.Proofs.Compile.Patterns
import SparqlSelect.Proofs.Compile.Projection
import SparqlSelect.Proofs.Fragment.Mentions
import SparqlSelect.Proofs.Query.Origins

/-!
# No temporal function is lost

A temporal function is put into the first group of the key of its observable. Aggregates have
groups of the same keys, but they stand after the observables, and inside the pattern of an
observable no group has a key. So the first group is the pattern of an observable with this key. The
specs of a key are those of all its observables, so the variable of the function is bound in that
group, and it stays bound whatever is injected before.

Each alias comes into the group once: where it is bound already, nothing is put there again, and
what is injected for other keys goes into other groups.

* `Settings.Stages.ofOrigin?` — the first group of a key.
* `inject_done` — a function of a variable that is bound is injected.
* `Injects.done_of_mentioned`, `Injects.bound` — the calls that are injected, and the bindings in
  the first group of a key after some calls.
* `build_injects_temporals` — every temporal function of every payload with observables.
-/

namespace SparqlSelect

open Pattern

-- ---------------------------------------------------------------------------
-- The first group of a key
-- ---------------------------------------------------------------------------

section

variable {s : Settings} {r : Request} {o : Observable} {sub : Subgraph}

/-- What the spec of an observable writes holds no group of a key. -/
theorem FilterSpec.Writes.keyless {spec : FilterSpec} {subject : String} {e : Element}
    (h : spec.Writes s subject e) : ∀ g ∈ e.groups, g.origin = none := by
  cases h with
  | own hBinds he =>
    cases hBinds with
    | unbound _ => cases he
    | bound _ _ =>
      rw [List.mem_singleton.mp he, elementFor]
      split <;> simp [Element.groups, Group.all_eq]
  | place _ | condition _ | bounds _ => simp [Element.groups]

/-- Inside the pattern of an observable no group has a key. -/
theorem subgraph_keyless (h : (s.subgraph r o).outcome = .ok sub) :
    ∀ e ∈ sub.group.elements, ∀ g ∈ e.groups, g.origin = none := by
  obtain ⟨anchor, additions, -, hAdditions, hShape⟩ := subgraph_eq_ok h
  rw [hShape, List.forall_mem_append, List.forall_mem_cons]
  refine ⟨⟨by simp [Element.groups], fun e he => ?_⟩, fun e he => ?_⟩
  · obtain ⟨a, ha, he⟩ := List.mem_flatMap.mp he
    obtain ⟨spec, -, hContributes⟩ := exists_of_forall₂_right hAdditions ha
    exact (hContributes.elements e he).keyless
  · -- the alternatives are groups of their own, without a key as well
    unfold unionOf at he
    split at he
    · cases he
    · rw [List.mem_singleton.mp he, Element.groups, Branch.groupsOfAll_eq_flatMap, List.flatMap_map]
      intro g hg
      obtain ⟨t, -, ht⟩ := List.mem_flatMap.mp hg
      obtain rfl : g = ⟨none, [.triple t]⟩ := by
        simpa [Triple.branch, Branch.groups, Group.all_eq, Element.groups] using ht
      rfl

/-- The pattern of an observable is found by its own key and by no other. -/
theorem subgraph_find? (h : (s.subgraph r o).outcome = .ok sub) (key : String) :
    sub.group.all.find? (·.origin == some key) =
      if o.key r.keys = key then some sub.group else none := by
  have hOrigin := (subgraph_drafted h).1
  rw [Group.all_eq]
  split
  · rename_i hKey
    exact List.find?_cons_of_pos (by simp [hOrigin, hKey])
  · rename_i hKey
    rw [List.find?_cons_of_neg (by simpa [hOrigin] using hKey), List.find?_eq_none]
    intro g hg
    obtain ⟨e, he, hg⟩ := List.mem_flatMap.mp hg
    rw [subgraph_keyless h e he g hg]
    simp

/-- The groups in the assembled pattern are those of the observables, but for a group around them
that has no key, unless there is one pattern that stands by itself. -/
theorem assemble_groups (subgraphs : List Subgraph) :
    (∃ only, subgraphs = [only] ∧ assemble subgraphs = only.group) ∨
    (assemble subgraphs).origin = none ∧
      (assemble subgraphs).elements.flatMap Element.groups =
        subgraphs.flatMap fun sub => sub.group.all := by
  have hBranch (sub : Subgraph) : sub.asBranch.groups = sub.group.all := by
    unfold Subgraph.asBranch
    split <;> rfl
  unfold assemble
  split
  · rename_i only
    split
    · exact .inl ⟨only, rfl, rfl⟩
    · exact .inr ⟨rfl, by simp [Element.groups, hBranch]⟩
  · exact .inr ⟨rfl, by
      simp [Element.groups, Branch.groupsOfAll_eq_flatMap, List.flatMap_map, hBranch]⟩

variable {subgraphs : List Subgraph} {aggregates : Option Aggregation} {before : SelectQuery}
  {steps : List (FunctionCall × Bool)} {done : Injection}

/-- The first group of the key of an observable holds the pattern of an observable of this key. -/
theorem Settings.Stages.ofOrigin? (h : s.Stages r subgraphs aggregates before steps done)
    (ho : o ∈ r.observables) :
    ∃ o' ∈ r.observables, ∃ sub g, o'.key r.keys = o.key r.keys ∧
      (s.subgraph r o').outcome = .ok sub ∧
      before.body.ofOrigin? (some (o.key r.keys)) = some g ∧
      sub.group.elements ⊆ g.elements := by
  obtain ⟨sub, hSub, hBuilt⟩ := exists_of_forall₂_left h.patterns ho
  obtain ⟨modifiers, -, rfl⟩ := h.assembled
  rw [body_extendedQuery, Group.ofOrigin?, Group.all_eq]
  obtain ⟨only, rfl, hOnly⟩ | ⟨hOrigin, hGroups⟩ := assemble_groups subgraphs
  · -- the pattern is found that stands by itself
    obtain rfl := List.mem_singleton.mp hSub
    rw [hOnly]
    refine ⟨o, ho, sub, _, rfl, hBuilt, List.find?_cons_of_pos ?_, List.subset_append_left ..⟩
    rw [(subgraph_drafted hBuilt).1]
    exact beq_self_eq_true _
  · -- the first pattern with the key is found
    obtain ⟨g, hg⟩ : ∃ g, subgraphs.findSome?
        (fun sub => sub.group.all.find? (·.origin == some (o.key r.keys))) = some g := by
      rw [← Option.isSome_iff_exists, List.findSome?_isSome_iff]
      exact ⟨sub, hSub, by simp [subgraph_find? hBuilt]⟩
    obtain ⟨first, hFirst, hFound⟩ := List.exists_of_findSome?_eq_some hg
    obtain ⟨o', ho', hFirstBuilt⟩ := exists_of_forall₂_right h.patterns hFirst
    rw [subgraph_find? hFirstBuilt, Option.ite_none_right_eq_some] at hFound
    obtain ⟨hKey, hSame⟩ := hFound
    cases hSame
    refine ⟨o', ho', first, first.group, hKey, hFirstBuilt, ?_, List.Subset.refl _⟩
    rw [List.find?_cons_of_neg (by simp [hOrigin]), List.flatMap_append, hGroups, List.find?_append,
      List.find?_flatMap, hg, Option.some_or]

/-- A group mentions the variable of a spec for which it holds the triple. -/
theorem mem_variables_of_binds {spec : FilterSpec} {v : String} {g : Group} {t : Triple}
    (hVar : Kind.acceptsAny [.var] v = true) (hObject : t.object = v)
    (h : spec.elementFor t ∈ g.elements) : v ∈ g.variables := by
  have hTriple : v ∈ t.variables := by
    rw [Triple.variables, hObject]
    exact List.mem_append_right _ (mem_variablesIn_self hVar)
  -- the triple stands in the group itself, or in an optional group inside it
  obtain ⟨k, hk, ht⟩ : ∃ k ∈ g.all, .triple t ∈ k.elements := by
    unfold FilterSpec.elementFor at h
    split at h
    · exact ⟨⟨none, [.triple t]⟩, Group.mem_all.mpr (.inr ⟨_, h, Group.mem_all.mpr (.inl rfl)⟩),
        List.mem_singleton_self _⟩
    · exact ⟨g, Group.mem_all.mpr (.inl rfl), h⟩
  refine List.mem_flatMap.mpr ⟨k, hk, List.mem_append_left _ ?_⟩
  exact List.mem_flatMap.mpr ⟨t, Group.mem_triples_iff.mpr ht, hTriple⟩

/-- The first group of the key of an observable mentions the variable of each spec of the key. -/
theorem Settings.Stages.mem_variables {spec : FilterSpec} {v : String}
    (h : s.Stages r subgraphs aggregates before steps done) (ho : o ∈ r.observables)
    (hSpec : spec ∈ r.specsOf (o.key r.keys)) (hVar : spec.var = some (.str v))
    (hAccepts : Kind.acceptsAny [.var] v = true) :
    ∃ g, before.body.ofOrigin? (some (o.key r.keys)) = some g ∧ v ∈ g.variables := by
  obtain ⟨o', -, sub, g, hKey, hBuilt, hFound, hSubset⟩ := h.ofOrigin? ho
  obtain ⟨anchor, additions, -, hAdditions, hShape⟩ := subgraph_eq_ok hBuilt
  rw [hKey] at hAdditions
  obtain ⟨a, ha, hContributes⟩ := exists_of_forall₂_left hAdditions hSpec
  obtain ⟨predicate, own, hOwn, hElements⟩ := hContributes.own
  -- a variable that is set is bound by the attribute's own element
  cases hOwn with
  | unbound hNone => rw [hVar] at hNone; cases hNone
  | @bound x t hBound hFor =>
    rw [hVar] at hBound
    cases hBound
    have hMem : spec.elementFor t ∈ sub.group.elements := by
      rw [hShape]
      exact List.mem_append_left _ (List.mem_cons_of_mem _
        (List.mem_flatMap.mpr ⟨a, ha, hElements (List.mem_singleton_self _)⟩))
    exact ⟨g, hFound, mem_variables_of_binds hAccepts hFor.object (hSubset hMem)⟩

end

-- ---------------------------------------------------------------------------
-- One call
-- ---------------------------------------------------------------------------

section

variable {q q' last : SelectQuery} {c : FunctionCall} {done : Bool} {key v : String}
  {bindings : List Binding} {steps : List (FunctionCall × Bool)}

/-- A binding comes to the bindings of a group. -/
theorem Group.binds_putBinding (g : Group) (place : Place) (b : Binding) :
    (g.putBinding place b).binds.Perm (b :: g.binds) := by
  obtain ⟨before, after, hElements, hPut⟩ := g.putBinding_eq place b
  rw [hPut, binds, binds, hElements, List.filterMap_append, List.filterMap_append]
  exact List.perm_middle

/-- A binding holds no groups. -/
theorem Group.groupsOfAll_putBinding (g : Group) (place : Place) (b : Binding) :
    Element.groupsOfAll (g.putBinding place b).elements = Element.groupsOfAll g.elements := by
  obtain ⟨before, after, hElements, hPut⟩ := g.putBinding_eq place b
  rw [hPut, hElements, Element.groupsOfAll_append, Element.groupsOfAll_append]
  rfl

/-- A function of a variable that the first group of its key mentions is injected. -/
theorem inject_done {g : Group} (hFound : q.body.ofOrigin? (some c.key) = some g)
    (hVar : c.var ∈ g.variables) (h : (q.inject c).outcome = .ok (q', done)) : done = true := by
  -- a variable of the group always has a place, at the end if nowhere else
  have hPlace : (bindingPlace g c).isSome = true := by
    unfold bindingPlace
    split
    · rfl
    · split
      · rfl
      · rw [if_pos (List.contains_iff_mem.mpr hVar)]
        rfl
  rw [SelectQuery.inject, hFound] at h
  dsimp only at h
  split at h
  · cases h
    rfl
  · split at h
    · rename_i hNone
      rw [hNone] at hPlace
      cases hPlace
    · simp only [Traced.outcome_bind, bind_eq_ok_iff] at h
      obtain ⟨b, -, -, -, -, -, h⟩ := h
      cases h
      rfl

/-- The bindings in the first group of a key after one more call: the same as before, with the alias
of the call among them if it was injected for this key, or else with a binding of the alias
added. -/
theorem inject_bindsOf? (hBound : q.body.bindsOf? (some key) = some bindings)
    (h : (q.inject c).outcome = .ok (q', done)) :
    ∃ bindings', q'.body.bindsOf? (some key) = some bindings' ∧
      (bindings' = bindings ∧
          (done = true → c.key = key → c.resultVar ∈ bindings.map (·.var)) ∨
        c.resultVar ∉ bindings.map (·.var) ∧
          (bindings'.map (·.var)).Perm (c.resultVar :: bindings.map (·.var))) := by
  -- what a call finds for its own key has these bindings
  have hOwn {g : Group} (hKey : c.key = key) (hFound : q.body.ofOrigin? (some c.key) = some g) :
      g.binds = bindings := by
    rw [Group.bindsOf?, ← hKey, hFound] at hBound
    exact Option.some.inj hBound
  have hAlias {g : Group} (hSame : g.binds = bindings) :
      g.binds.any (·.var == c.resultVar) = true ↔ c.resultVar ∈ bindings.map (·.var) := by
    simp [hSame]
  obtain ⟨rfl, rfl⟩ | ⟨g, hFound, -, ⟨hAny, rfl⟩ | ⟨place, b, hAny, -, rfl, -, rfl⟩⟩ :=
    inject_eq_ok h
  · exact ⟨bindings, hBound, .inl ⟨rfl, by simp⟩⟩
  · rw [SelectQuery.body_project]
    exact ⟨bindings, hBound, .inl ⟨rfl, fun _ hKey => (hAlias (hOwn hKey hFound)).mp hAny⟩⟩
  · rw [SelectQuery.body_project]
    by_cases hKey : c.key = key
    · subst hKey
      obtain ⟨k, hLabel, hAfter⟩ := Group.bindsOf?_updateOrigin_self
        (f := (·.putBinding place ⟨c.text, c.resultVar⟩)) (fun g => Group.origin_putBinding g _ _)
        (fun g => Group.groupsOfAll_putBinding g _ _) hFound
      have hSame : k.binds = bindings := (Prod.mk.inj hLabel).2.trans (hOwn rfl hFound)
      refine ⟨_, hAfter, .inr ⟨fun hMem => ?_, ?_⟩⟩
      · rw [(hAlias (hOwn rfl hFound)).mpr hMem] at hAny
        cases hAny
      · simpa [hSame] using (Group.binds_putBinding k place ⟨c.text, c.resultVar⟩).map (·.var)
    · have hOther : some c.key ≠ some key := fun hSame => hKey (Option.some.inj hSame)
      refine ⟨bindings, ?_, .inl ⟨rfl, fun _ hSame => absurd hSame hKey⟩⟩
      dsimp only
      rw [Group.bindsOf?_updateOrigin_of_ne hOther (fun g => Group.origin_putBinding g _ _)
        (fun g => Group.groupsOfAll_putBinding g _ _), hBound]

-- ---------------------------------------------------------------------------
-- A run of calls
-- ---------------------------------------------------------------------------

/-- After some calls the first group of a key binds no alias twice, all that it bound before, and
the alias of every call that was injected for the key. -/
theorem Injects.bound (h : Injects q steps last)
    (hBound : q.body.bindsOf? (some key) = some bindings)
    (hNodup : (bindings.map (·.var)).Nodup) :
    ∃ bindings', last.body.bindsOf? (some key) = some bindings' ∧
      (bindings'.map (·.var)).Nodup ∧ bindings.map (·.var) ⊆ bindings'.map (·.var) ∧
      ∀ c, (c, true) ∈ steps → c.key = key → c.resultVar ∈ bindings'.map (·.var) := by
  induction h generalizing bindings with
  | refl q => exact ⟨bindings, hBound, hNodup, List.Subset.refl _, nofun⟩
  | @step q q' last c done steps hInject _ ih =>
    obtain ⟨after, hAfter, hStep⟩ := inject_bindsOf? hBound hInject
    -- one call keeps the aliases distinct and takes none away
    have hKept : (after.map (·.var)).Nodup ∧ bindings.map (·.var) ⊆ after.map (·.var) ∧
        (done = true → c.key = key → c.resultVar ∈ after.map (·.var)) := by
      obtain ⟨rfl, hThere⟩ | ⟨hNew, hPerm⟩ := hStep
      · exact ⟨hNodup, List.Subset.refl _, hThere⟩
      · refine ⟨hPerm.nodup_iff.mpr (List.nodup_cons.mpr ⟨hNew, hNodup⟩), ?_, ?_⟩
        · exact fun v hv => hPerm.mem_iff.mpr (List.mem_cons_of_mem _ hv)
        · exact fun _ _ => hPerm.mem_iff.mpr List.mem_cons_self
    obtain ⟨others, hOthers, hDistinct, hSubset, hInjected⟩ := ih hAfter hKept.1
    refine ⟨others, hOthers, hDistinct, List.Subset.trans hKept.2.1 hSubset, fun d hd hKey => ?_⟩
    rcases List.mem_cons.mp hd with hSame | hd
    · cases hSame
      exact hSubset (hKept.2.2 rfl hKey)
    · exact hInjected d hd hKey

/-- Every function of a variable is injected that the first group of its key mentions to begin with:
what is left of that group without bindings does not change. -/
theorem Injects.done_of_mentioned {w : Group} (h : Injects q steps last)
    (hFound : q.body.withoutBindings.ofOrigin? (some key) = some w) (hVar : v ∈ w.variables) :
    ∀ c done, (c, done) ∈ steps → c.key = key → c.var = v → done = true := by
  induction h with
  | refl q => exact nofun
  | @step q q' last c done steps hInject _ ih =>
    intro d wasDone hd hKey hSame
    rcases List.mem_cons.mp hd with hHead | hd
    · cases hHead
      obtain ⟨g, hg, rfl⟩ := Option.map_eq_some_iff.mp
        ((Group.ofOrigin?_withoutBindings q.body (some key)).symm.trans hFound)
      subst hKey hSame
      exact inject_done hg (Group.variables_withoutBindings_subset g hVar) hInject
    · exact ih ((inject_withoutBindings hInject).symm ▸ hFound) d wasDone hd hKey hSame

end

-- ---------------------------------------------------------------------------
-- All temporal functions of a request
-- ---------------------------------------------------------------------------

section

variable {s : Settings} {r : Request} {o : Observable} {subgraphs : List Subgraph}
  {aggregates : Option Aggregation} {before : SelectQuery}
  {steps : List (FunctionCall × Bool)} {done : Injection}

/-- **No temporal function is lost.** When a payload has a query and a clause of a spec of an
observable asks for a temporal function of a variable, the function is injected and never skipped.
Its alias is selected, and the first group of the key of the observable binds the alias exactly
once. -/
theorem build_injects_temporals {payload : Json} {q : SelectQuery} {spec : FilterSpec} {v : String}
    {c : Clause} (hRead : Request.read payload = .ok r)
    (hAsks : s.Asks r .temporal o spec (.str v) c) (hVar : Kind.acceptsAny [.var] v = true)
    (h : (s.build payload).outcome = .ok q) :
    let call := o.call (o.key r.keys) .temporal spec (.str v) c
    ∃ subgraphs aggregates before steps done,
      s.Stages r subgraphs aggregates before steps done ∧ done.query = q ∧
      (call, true) ∈ steps ∧ (call, false) ∉ steps ∧ call.resultVar ∈ q.projection ∧
      ∃ g, q.body.ofOrigin? (some (o.key r.keys)) = some g ∧
        (g.binds.map (·.var)).count call.resultVar = 1 := by
  intro call
  obtain ⟨subgraphs, aggregates, before, steps, done, hStages, rfl⟩ :=
    build_stages hRead (List.ne_nil_of_mem hAsks.listed) h
  obtain ⟨w, hFound, hMentions⟩ :=
    hStages.mem_variables hAsks.listed hAsks.attached hAsks.bound hVar
  have hInjects := hStages.reports.injects
  -- the call is among the steps, and every step with it is done
  have hCall : call ∈ s.groupedCalls .temporal r :=
    FunctionCall.mem_flatMap_grouped.mpr hAsks.mem_requested
  have hDone (wasDone : Bool) (hStep : (call, wasDone) ∈ steps) : wasDone = true := by
    refine hInjects.done_of_mentioned (w := w) ?_ hMentions call wasDone hStep rfl rfl
    rwa [hStages.withoutBindings_before]
  have hStep : (call, true) ∈ steps := by
    rw [← hStages.calls] at hCall
    obtain ⟨⟨_, wasDone⟩, hMem, rfl⟩ := List.mem_map.mp hCall
    exact hDone wasDone hMem ▸ hMem
  -- nothing is bound before, so the aliases in the group are distinct
  have hNone : w.binds = [] := by
    refine List.eq_nil_iff_forall_not_mem.mpr fun b hb => ?_
    exact hStages.drafted w (List.mem_of_find?_eq_some hFound) _ (Group.mem_binds_iff.mp hb)
  have hStart : before.body.bindsOf? (some (o.key r.keys)) = some [] := by
    rw [Group.bindsOf?, hFound, Option.map_some, hNone]
  obtain ⟨bindings, hBound, hNodup, -, hAliases⟩ := hInjects.bound hStart List.nodup_nil
  obtain ⟨g, hg, rfl⟩ := Option.map_eq_some_iff.mp hBound
  refine ⟨subgraphs, aggregates, before, steps, done, hStages, rfl, hStep,
    fun hSkipped => Bool.false_ne_true (hDone false hSkipped), ?_, g, hg,
    List.count_eq_one_of_mem hNodup (hAliases call hStep rfl)⟩
  rw [hStages.projection, List.mem_eraseDups]
  exact List.mem_append_right _ (List.mem_map.mpr
    ⟨(call, true), List.mem_filter.mpr ⟨hStep, rfl⟩, rfl⟩)

end

/-- The year in the payload is injected, and its alias is bound once where its variable is. -/
theorem build_injects_temporals_station :
    ∃ r o spec v c q, Request.read stationPayload = .ok r ∧
      Settings.standard.Asks r .temporal o spec (.str v) c ∧ Kind.acceptsAny [.var] v = true ∧
      (Settings.standard.build stationPayload).outcome = .ok q ∧
      ∃ g, q.body.ofOrigin? (some (o.key r.keys)) = some g ∧
        (g.binds.map (·.var)).count (o.call (o.key r.keys) .temporal spec (.str v) c).resultVar =
          1 := by
  obtain ⟨q, hq⟩ := exists_of_isOk stationPayload_builds
  obtain ⟨r, o, spec, v, c, hRead, hAsks, hVar⟩ := stationPayload_asks .temporal
  obtain ⟨-, -, -, -, -, -, -, -, -, -, hBound⟩ := build_injects_temporals hRead hAsks hVar hq
  exact ⟨r, o, spec, v, c, q, hRead, hAsks, hVar, hq, hBound⟩

end SparqlSelect
