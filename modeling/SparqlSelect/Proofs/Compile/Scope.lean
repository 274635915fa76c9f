import SparqlSelect.Proofs.Compile.Assembly
import SparqlSelect.Proofs.Compile.Notes
import SparqlSelect.Proofs.Compile.Patterns
import SparqlSelect.Proofs.Pattern.Longest
import SparqlSelect.Proofs.Query.Scope

/-!
# What is selected is in scope

A query selects variables that were noted, the aliases of its aggregates and the aliases of its
temporal functions. The noted variables stand in triples of the patterns for which they were noted.
The sub-query of the aggregates comes after these patterns, and it is built for keys that have a
group among them. So a binding that is put into the first group of its key never goes into that
sub-query, where nobody outside would see it.

* `subgraph_declares` — the variables that were noted for a pattern.
* `inject_scoped` — what a call keeps on both sides of the sub-query.
* `build_projection_scoped` — the query of every payload with observables.
-/

namespace SparqlSelect

-- ---------------------------------------------------------------------------
-- Variables that were noted
-- ---------------------------------------------------------------------------

/-- A term whose first character starts no URL is put between no brackets. -/
theorem bracketUrl_of_following {term : String} {c : Char} {rest : List Char}
    (hTerm : term.toList = c :: rest) (hStart : Token.url.following c = []) :
    bracketUrl term = term := by
  have hNone (s : List Char) : Token.url.accepts (c :: s) = false := by
    rw [Bool.eq_false_iff, ne_eq, Pattern.accepts_iff]
    exact Pattern.not_matches_cons hStart s
  have hLine : Token.url.accepts (c :: rest).dropLast = false := by
    cases rest with
    | nil => exact (rfl : Token.url.accepts [] = false)
    | cons d rest => exact hNone _
  rw [bracketUrl, hTerm, Pattern.acceptsLine, hNone, hLine]
  simp

/-- A term with the mark of a variable is no URL. -/
theorem bracketUrl_of_isVariableTerm {v : String} (h : isVariableTerm v = true) :
    bracketUrl v = v := by
  unfold isVariableTerm at h
  split at h
  · rename_i c rest hTerm
    simp only [Bool.or_eq_true, beq_iff_eq] at h
    rcases h with rfl | rfl <;> exact bracketUrl_of_following hTerm (by decide +kernel)
  · cases h

/-- The triple of an observable declares its terms, but for those that were put between brackets. -/
theorem Triple.IsFor.declares {o : Observable} {anchor : Triple} {v : String}
    (h : anchor.IsFor (bracketUrl o.subject) (bracketUrl o.predicate) (bracketUrl o.object))
    (hTerm : v ∈ o.terms) (hVariable : isVariableTerm v = true) : v ∈ anchor.slots := by
  have hSame := bracketUrl_of_isVariableTerm hVariable
  have hSome : v ≠ "" := by
    rintro rfl
    cases hVariable
  simp only [Observable.terms, List.mem_cons, List.not_mem_nil, or_false] at hTerm
  rcases hTerm with rfl | rfl | rfl
  · rw [hSame] at h
    simp [Triple.slots, h.subject hSome]
  · simp [Triple.slots, h.predicate, hSame]
  · simp [Triple.slots, h.object, hSame]

/-- The triple of a spec declares the variable of the spec. -/
theorem FilterSpec.Binds.declares {spec : FilterSpec} {subject predicate : String}
    {own : List Element} {var : Json} (h : spec.Binds subject predicate own)
    (hVar : spec.var = some var) (origin : Option String) :
    (Group.mk origin own).Declares var.display := by
  cases h with
  | unbound hNone =>
    rw [hNone] at hVar
    cases hVar
  | @bound x t hBound hFor =>
    rw [hBound] at hVar
    cases hVar
    have hSlot : x ∈ t.slots := by simp [Triple.slots, hFor.object]
    -- the triple stands in the group itself or in an optional one below it
    rw [elementFor]
    split
    · exact ⟨_, Group.mem_all.mpr
        (.inr ⟨_, List.mem_singleton_self _, Group.mem_all.mpr (.inl rfl)⟩), .triple t,
        List.mem_singleton_self _, hSlot⟩
    · exact Group.declares_of_mem (List.mem_singleton_self _) hSlot

/-- A pattern declares the terms of its observable that are variables, and the variables of its
specs. -/
theorem subgraph_declares {s : Settings} {r : Request} {o : Observable} {sub : Subgraph}
    {v : String} (h : (s.subgraph r o).outcome = .ok sub)
    (hv : (v ∈ o.terms ∧ isVariableTerm v = true) ∨
      ∃ spec ∈ r.specsOf (o.key r.keys), ∃ var, spec.var = some var ∧ v = var.display) :
    sub.group.Declares v := by
  obtain ⟨anchor, additions, hAnchor, hAdditions, hShape⟩ := subgraph_eq_ok h
  have hElements (xs : List Element) (hSub : xs ⊆ sub.group.elements)
      (hDeclares : (Group.mk none xs).Declares v) : sub.group.Declares v := hDeclares.mono hSub
  -- the variable is a term of the observable, in its anchor, or the one of a spec
  rcases hv with ⟨hTerm, hVariable⟩ | ⟨spec, hSpec, var, hVar, rfl⟩
  · refine hElements [.triple anchor] (by simp [hShape]) ?_
    exact Group.declares_of_mem (List.mem_singleton_self _) (hAnchor.declares hTerm hVariable)
  · obtain ⟨a, ha, hContributes⟩ := exists_of_forall₂_left hAdditions hSpec
    obtain ⟨predicate, own, hOwn, hSub⟩ := hContributes.own
    refine hElements own (fun e he => ?_) (hOwn.declares hVar _)
    rw [hShape]
    simp only [List.mem_append, List.mem_cons, List.mem_flatMap]
    exact .inl (.inr ⟨a, ha, hSub he⟩)

-- ---------------------------------------------------------------------------
-- One call
-- ---------------------------------------------------------------------------

theorem Group.mem_elements_putBinding {g : Group} {place : Place} {b : Binding} {e : Element} :
    e ∈ (g.putBinding place b).elements ↔ e = .bind b ∨ e ∈ g.elements := by
  obtain ⟨u, v, hElements, hPut⟩ := g.putBinding_eq place b
  rw [hPut, hElements]
  simp only [List.mem_append, List.mem_cons]
  exact or_left_comm

theorem Group.subset_putBinding (g : Group) (place : Place) (b : Binding) :
    g.elements ⊆ (g.putBinding place b).elements :=
  fun _ he => Group.mem_elements_putBinding.mpr (.inr he)

/-- A query whose pattern holds some elements between others: the groups of some keys stand before
them, and whatever is selected is declared around them or is among the aliases. -/
structure SelectQuery.Scoped (origin : Option String) (mid : List Element)
    (keys aliases : List String) (before after : List Element) (q : SelectQuery) : Prop where
  body : q.body = ⟨origin, before ++ mid ++ after⟩
  keys : ∀ key ∈ keys, (Group.mk origin before).HasOrigin (some key)
  selected : ∀ item ∈ q.projection,
    (Group.mk origin (before ++ after)).Declares item ∨ item ∈ aliases

section

variable {origin : Option String} {mid before after : List Element} {keys aliases : List String}
  {q q' : SelectQuery} {c : FunctionCall} {done : Bool}

/-- What is declared around the elements in the middle may be selected. -/
theorem SelectQuery.Scoped.project {v : String}
    (h : q.Scoped origin mid keys aliases before after)
    (hDeclared : (Group.mk origin (before ++ after)).Declares v) :
    (q.project v).Scoped origin mid keys aliases before after where
  body := (body_project q v).trans h.body
  keys := h.keys
  selected item hItem := by
    rcases mem_projection_project.mp hItem with hItem | rfl
    · exact h.selected item hItem
    · exact .inl hDeclared

/-- A binding that is found in the first group of a key is not among the elements in the middle. -/
theorem SelectQuery.Scoped.declares_of_found {key : String} {g : Group} {b : Binding}
    (h : q.Scoped origin mid keys aliases before after)
    (hMid : ∀ e ∈ mid, ∃ branch, e = .nested branch) (hKey : key ∈ keys)
    (hFound : q.body.ofOrigin? (some key) = some g) (hBind : b ∈ g.binds) :
    (Group.mk origin (before ++ after)).Declares b.var := by
  rw [Group.mem_binds_iff] at hBind
  rw [h.body] at hFound
  by_cases hOrigin : origin = some key
  · -- the group of the key is the whole pattern
    rw [Group.ofOrigin?, Group.all, List.find?_cons_of_pos (by simpa using hOrigin)] at hFound
    cases hFound
    refine Group.declares_of_mem (e := .bind b) ?_ rfl
    simp only [List.mem_append] at hBind ⊢
    rcases hBind with (hBefore | hMiddle) | hAfter
    · exact .inl hBefore
    · obtain ⟨branch, hNested⟩ := hMid _ hMiddle
      cases hNested
    · exact .inr hAfter
  · rw [List.append_assoc] at hFound
    obtain ⟨e, he, hg⟩ := Group.ofOrigin?_append hOrigin (h.keys key hKey) hFound
    exact ⟨g, Group.mem_all.mpr (.inr ⟨e, List.mem_append_left _ he, hg⟩), .bind b, hBind, rfl⟩

/-- A binding goes into the group of its key on one side of the elements in the middle. -/
theorem SelectQuery.Scoped.putBinding {key : String} {place : Place} {b : Binding}
    (h : q.Scoped origin mid keys aliases before after) (hMid : mid.length ≤ 1)
    (hKey : key ∈ keys) :
    ∃ before' after', SelectQuery.Scoped origin mid keys aliases before' after'
        { q with body := q.body.updateOrigin (some key) (·.putBinding place b) } ∧
      (Group.mk origin (before' ++ after')).Declares b.var := by
  rw [h.body, Group.updateOrigin]
  by_cases hOrigin : origin = some key
  · -- the binding goes into the outermost group, on one side of the sub-query or the other
    obtain ⟨u, v, hElements, hPut⟩ := Group.putBinding_eq ⟨origin, before ++ mid ++ after⟩ place b
    obtain ⟨before', after', hSplit, hBefore, hAfter, hMem⟩ :=
      insert_beside hElements.symm hMid (.bind b)
    have hSub : before ++ after ⊆ before' ++ after' :=
      List.append_subset.mpr ⟨List.Subset.trans hBefore (List.subset_append_left ..),
        List.Subset.trans hAfter (List.subset_append_right ..)⟩
    refine ⟨before', after', ⟨?_, fun k hk => (h.keys k hk).mono rfl hBefore, fun item hItem => ?_⟩,
      Group.declares_of_mem hMem rfl⟩
    · rw [Group.update?, if_pos (by simpa using hOrigin), Option.getD_some, hPut, hSplit]
    · exact (h.selected item hItem).imp_left fun hDeclares => hDeclares.mono hSub
  · obtain ⟨before', hUpdate, hAppend⟩ :=
      -- otherwise the group of the key stands before the sub-query, and the change is made there
      Group.update?_append (f := (·.putBinding place b)) hOrigin (h.keys key hKey)
    refine ⟨before', after, ⟨?_, fun k hk => ?_, fun item hItem => ?_⟩, ?_⟩
    · rw [List.append_assoc, hAppend, Option.getD_some, List.append_assoc]
    · refine (congruence_hasOrigin (some k)).update? (fun g hg => ?_) _ _ hUpdate (h.keys k hk)
      exact hg.mono (g.origin_putBinding place b) (g.subset_putBinding place b)
    · refine (h.selected item hItem).imp_left fun hDeclares => ?_
      exact Group.Declares.update? (fun g hg => hg.mono (g.subset_putBinding place b))
        (hAppend after) hDeclares
    · refine Group.declares_of_update? (fun g => ?_) (hAppend after)
      exact ⟨_, Group.mem_all.mpr (.inl rfl), .bind b, Group.mem_elements_putBinding.mpr (.inl rfl),
        rfl⟩

/-- A call leaves the elements in the middle alone, and what it selects is declared around them. -/
theorem inject_scoped (h : q.Scoped origin mid keys aliases before after)
    (hMid : mid.length ≤ 1) (hNested : ∀ e ∈ mid, ∃ branch, e = .nested branch)
    (hKey : c.key ∈ keys) (hInject : (q.inject c).outcome = .ok (q', done)) :
    ∃ before' after', q'.Scoped origin mid keys aliases before' after' := by
  obtain ⟨rfl, -⟩ | ⟨g, hFound, -, ⟨hAny, rfl⟩ | ⟨place, b, -, -, rfl, -, rfl⟩⟩ :=
    inject_eq_ok hInject
  · exact ⟨before, after, h⟩
  · obtain ⟨b, hb, hVar⟩ := List.any_eq_true.mp hAny
    have hDeclares := h.declares_of_found hNested hKey hFound hb
    rw [beq_iff_eq.mp hVar] at hDeclares
    exact ⟨before, after, h.project hDeclares⟩
  · obtain ⟨before', after', hScoped, hDeclares⟩ := h.putBinding hMid hKey
    exact ⟨before', after', hScoped.project hDeclares⟩

end

-- ---------------------------------------------------------------------------
-- The query of the observables
-- ---------------------------------------------------------------------------

/-- The sub-query of some aggregates, if there is one, as elements of a pattern. -/
def aggregateElements (aggregates : Option Aggregation) : List Element :=
  (aggregates.map fun a => .nested (.select a.query)).toList

/-- Everything that a query selects is declared in its pattern outside the sub-query of some
aggregates, or that sub-query selects it as the alias of a call. -/
def SelectQuery.InScope (q : SelectQuery) (aggregates : Option Aggregation) : Prop :=
  ∃ before after, q.body.elements = before ++ aggregateElements aggregates ++ after ∧
    ∀ item ∈ q.projection, (Group.mk q.body.origin (before ++ after)).Declares item ∨
      ∃ a ∈ aggregates, ∃ c : FunctionCall, c.selectItem ∈ a.query.projection ∧ item = c.resultVar

/-- The patterns of the observables stand in the assembled pattern. -/
theorem mem_all_assemble {subgraphs : List Subgraph} {sub : Subgraph} (h : sub ∈ subgraphs) :
    sub.group ∈ (assemble subgraphs).all := by
  -- a subgraph's group is its branch, or the body of its branch's query
  have hBranch : ∀ sub : Subgraph, sub.group ∈ sub.asBranch.groups := by
    intro sub
    unfold Subgraph.asBranch
    split
    · exact Group.mem_all.mpr (.inl rfl)
    · exact Group.mem_all.mpr (.inl rfl)
  unfold assemble
  split
  · rw [List.mem_singleton.mp h]
    split
    · exact Group.mem_all.mpr (.inl rfl)
    · exact Group.mem_all.mpr (.inr ⟨_, List.mem_singleton_self _, hBranch _⟩)
  · refine Group.mem_all.mpr (.inr ⟨_, List.mem_singleton_self _, ?_⟩)
    exact Branch.mem_groupsOfAll.mpr ⟨_, List.mem_map_of_mem h, hBranch sub⟩

/-- What the pattern of an observable declares is declared in the assembled pattern. -/
theorem assemble_declares {subgraphs : List Subgraph} {sub : Subgraph} {v : String}
    (h : sub ∈ subgraphs) (hDeclares : sub.group.Declares v) :
    (assemble subgraphs).Declares v := by
  rw [Group.declares_iff] at hDeclares ⊢
  rw [assemble_everywhere (fun _ => not_false) fun _ => not_false]
  exact fun hAll => hDeclares (hAll sub h)

/-- The aliases of a sub-query are those of the calls that it selects. -/
theorem exists_of_mem_aliases {groups : List (String × List FunctionCall)} {a : Aggregation}
    (h : (aggregation groups).outcome = .ok (some a)) {v : String} (hv : v ∈ a.aliases) :
    ∃ c : FunctionCall, c.selectItem ∈ a.query.projection ∧ v = c.resultVar := by
  obtain ⟨-, hNone⟩ | ⟨branches, selected, -, hSome⟩ := aggregation_eq_ok h
  · cases hNone
  · cases hSome
    obtain ⟨c, hc, rfl⟩ := List.mem_map.mp hv
    exact ⟨c, List.mem_map_of_mem hc, rfl⟩

/-- The temporal functions to inject were asked for. -/
theorem mem_calls_of_temporalCalls {notes : List Note} {c : FunctionCall}
    (h : c ∈ temporalCalls notes) : c ∈ Traced.calls .temporal notes := by
  obtain ⟨entry, hEntry, hc⟩ := List.mem_flatMap.mp h
  obtain ⟨key, -, rfl⟩ := List.mem_map.mp hEntry
  exact (List.mem_filter.mp hc).1

section

variable {s : Settings} {r : Request} {subgraphs : List Subgraph} {modifiers : List Modifier}
  {aggregates : Option Aggregation}

/-- Before any call is injected, what is selected is declared before the sub-query. -/
theorem extendedQuery_scoped
    (hSubs : List.Forall₂ (fun o sub => (s.subgraph r o).outcome = .ok sub) r.observables
      subgraphs) :
    (s.extendedQuery subgraphs (r.observables.mapM (s.subgraph r)).notes modifiers
      aggregates).Scoped (assemble subgraphs).origin (aggregateElements aggregates)
      (r.observables.map (·.key r.keys)) ((aggregates.map (·.aliases)).getD [])
      (assemble subgraphs).elements [] where
  body := by rw [body_extendedQuery, List.append_nil]; rfl
  keys key hKey := by
    -- every key has a subgraph, whose group stands in what is assembled
    obtain ⟨o, ho, rfl⟩ := List.mem_map.mp hKey
    obtain ⟨sub, hSub, hOutcome⟩ := exists_of_forall₂_left hSubs ho
    have hOrigin : (assemble subgraphs).HasOrigin (some (o.key r.keys)) :=
      ⟨sub.group, mem_all_assemble hSub, (subgraph_drafted hOutcome).1⟩
    exact hOrigin.mono rfl (List.Subset.refl _)
  selected item hItem := by
    rcases mem_projection_extendedQuery.mp hItem with hNoted | ⟨a, rfl, hAlias⟩
    · obtain ⟨o, ho, hNote⟩ := exists_of_selectedVar hNoted
      obtain ⟨sub, hSub, hOutcome⟩ := exists_of_forall₂_left hSubs ho
      refine .inl ((assemble_declares hSub (subgraph_declares hOutcome hNote)).mono ?_)
      exact List.subset_append_left ..
    · exact .inr hAlias

/-- **What is selected is in scope.** When a payload lists observables and has a query, whatever the
query selects is a term of a triple or the variable of a binding in its pattern, outside the
sub-query of the aggregates, or it is one of the aliases of that sub-query. No binding goes into the
sub-query: it stands in the pattern as it was made. -/
theorem build_projection_scoped {payload : Json} {q : SelectQuery}
    (hRead : Request.read payload = .ok r) (hSome : r.observables ≠ [])
    (h : (s.build payload).outcome = .ok q) :
    ∃ aggregates,
      (aggregation (aggregateGroups (r.observables.mapM (s.subgraph r)).notes)).outcome =
        .ok aggregates ∧
      q.InScope aggregates := by
  obtain ⟨subgraphs, modifiers, aggregates, done, hSubs, -, hAggregates, hDone, rfl⟩ :=
    build_observables_eq_ok hRead hSome h
  refine ⟨aggregates, hAggregates, ?_⟩
  have hMid : (aggregateElements aggregates).length ≤ 1 := by
    cases aggregates <;> simp [aggregateElements]
  have hNested : ∀ e ∈ aggregateElements aggregates, ∃ branch, e = .nested branch := by
    cases aggregates <;> simp [aggregateElements]
  -- every call was asked for by an observable, so its key has a group before the sub-query
  obtain ⟨before, after, hScoped⟩ := withTemporals_keeps
    (I := fun p => ∃ before after, p.Scoped (assemble subgraphs).origin
      (aggregateElements aggregates) (r.observables.map (·.key r.keys))
      ((aggregates.map (·.aliases)).getD []) before after)
    (by
      rintro c hc p p' done ⟨before, after, hp⟩ hInject
      obtain ⟨o, ho, spec, -, var, clause, -, -, -, rfl⟩ :=
        exists_of_call (mem_calls_of_temporalCalls hc)
      exact inject_scoped hp hMid hNested (List.mem_map_of_mem ho) hInject)
    ⟨_, _, extendedQuery_scoped hSubs⟩ hDone
  refine ⟨before, after, by rw [hScoped.body], fun item hItem => ?_⟩
  rw [hScoped.body]
  refine (hScoped.selected item hItem).imp_right fun hAlias => ?_
  cases aggregates with
  | none => cases hAlias
  | some a => exact ⟨a, rfl, exists_of_mem_aliases hAggregates hAlias⟩

end

/-- What the payload selects, an average and a year among it, is in scope. -/
theorem build_projection_scoped_station :
    ∃ r q aggregates, Request.read stationPayload = .ok r ∧ r.observables ≠ [] ∧
      (Settings.standard.build stationPayload).outcome = .ok q ∧
      (aggregation (aggregateGroups
        (r.observables.mapM (Settings.standard.subgraph r)).notes)).outcome = .ok aggregates ∧
      q.InScope aggregates := by
  obtain ⟨q, hq⟩ := exists_of_isOk stationPayload_builds
  obtain ⟨r, hRead, -⟩ := build_eq_ok_iff.mp hq
  have hSome := stationPayload_observables hRead
  obtain ⟨aggregates, hAggregates, hScope⟩ := build_projection_scoped hRead hSome hq
  exact ⟨r, q, aggregates, hRead, hSome, hq, hAggregates, hScope⟩

end SparqlSelect
