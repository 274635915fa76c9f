import SparqlSelect.Proofs.Compile.Specs
import SparqlSelect.Proofs.Fragment.Alias
import SparqlSelect.Proofs.Query.Projection

/-!
# What the sub-query of the aggregates is made of

Calls are grouped by their keys, and each key gives a branch of triples: the one of its observable
and one for each variable that is aggregated. What is selected are the items of the calls, each
once. No call is lost: where a call is left out, another one has the same item.

* `branch_eq_ok` — the branch of a key.
* `Computes` — what a sub-query is made of, and `aggregation_computes`, that every one is.
* `Computes.projection`, `Computes.aliases` — what it selects, in which order.
-/

namespace SparqlSelect

-- ---------------------------------------------------------------------------
-- Calls by key
-- ---------------------------------------------------------------------------

namespace FunctionCall

variable {calls : List FunctionCall}

/-- A key is there because of a call. -/
theorem grouped_ne_nil {entry : String × List FunctionCall} (h : entry ∈ grouped calls) :
    entry.2 ≠ [] := by
  obtain ⟨key, hKey, rfl⟩ := List.mem_map.mp h
  obtain ⟨c, hc, rfl⟩ := List.mem_map.mp (List.mem_eraseDups.mp hKey)
  exact List.ne_nil_of_mem (List.mem_filter.mpr ⟨hc, beq_self_eq_true _⟩)

/-- The calls by key are the calls. -/
theorem mem_flatMap_grouped {c : FunctionCall} :
    c ∈ (grouped calls).flatMap (·.2) ↔ c ∈ calls := by
  simp only [grouped, List.mem_flatMap, List.mem_map]
  constructor
  · rintro ⟨_, ⟨key, -, rfl⟩, hc⟩
    exact (List.mem_filter.mp hc).1
  · intro hc
    exact ⟨_, ⟨c.key, List.mem_eraseDups.mpr (List.mem_map_of_mem hc), rfl⟩,
      List.mem_filter.mpr ⟨hc, beq_self_eq_true _⟩⟩

/-- The triple of the observable that a call was asked for. -/
def anchor (c : FunctionCall) : Triple :=
  ⟨bracketUrl c.subject, bracketUrl c.predicate, bracketUrl c.object⟩

end FunctionCall

namespace Aggregation

-- ---------------------------------------------------------------------------
-- Branches
-- ---------------------------------------------------------------------------

/-- The triples of the branch of a key: the one of the first call, and one for each distinct pair of
an IRI and a variable. -/
structure Branched (first : FunctionCall) (calls : List FunctionCall) (anchor : Triple)
    (triples : List Triple) : Prop where
  anchored : anchor.IsFor (bracketUrl first.subject) (bracketUrl first.predicate)
    (bracketUrl first.object)
  bound : List.Forall₂ (fun (pair : String × String) t =>
    t.IsFor (bracketUrl first.subject) (bracketUrl pair.1) pair.2) (bindings calls) triples

/-- The triples of a branch with a first call and with calls. -/
def branchTriples (first : FunctionCall) (calls : List FunctionCall) : List Triple :=
  first.anchor :: (bindings calls).map fun (uri, var) =>
    ⟨bracketUrl first.subject, bracketUrl uri, var⟩

/-- A branch is made of its triples, and all of them were checked. -/
theorem branch_eq {key : String} {first : FunctionCall} {calls : List FunctionCall} {g : Group}
    (h : branch key first calls = .ok g) :
    g = ⟨some key, (branchTriples first calls).map .triple⟩ ∧
      ∀ t ∈ branchTriples first calls, t.Fits := by
  simp only [branch, bind_eq_ok_iff] at h
  obtain ⟨start, hStart, draft, hDraft, h⟩ := h
  cases h
  obtain ⟨anchor, hAnchor, rfl⟩ := Draft.triple_eq_ok_iff.mp hStart
  have hFits := (checkTriple_eq_ok_iff.mp hAnchor).2.2.2
  obtain rfl := checkTriple_str hAnchor
  -- the loop over the pairs: what has been added so far is the anchor and a triple for each pair
  refine foldlM_along
    (I := fun (done : List (String × String)) (d : Draft) =>
      let triples := first.anchor :: done.map fun (uri, var) =>
        (⟨bracketUrl first.subject, bracketUrl uri, var⟩ : Triple)
      d.group = ⟨some key, triples.map .triple⟩ ∧ ∀ t ∈ triples, t.Fits)
    ?_ ⟨rfl, fun t ht => List.mem_singleton.mp ht ▸ hFits⟩ hDraft
  rintro done ⟨uri, var⟩ - d d' ⟨hGroup, hDone⟩ hStep
  obtain ⟨t, ht, rfl⟩ := Triple.isFor_of_also hStep
  have hNew := ht.fits
  obtain rfl := ht.eq (Kind.ne_empty_of_subject hFits.subject)
  refine ⟨by simp [Draft.add, Group.add, hGroup], ?_⟩
  rw [List.map_append, ← List.cons_append, List.forall_mem_append]
  exact ⟨hDone, fun t ht => List.mem_singleton.mp ht ▸ hNew⟩

/-- The variable of each call of a branch is bound at the subject of the first one. -/
theorem mem_branchTriples (first : FunctionCall) {c : FunctionCall} {calls : List FunctionCall}
    (h : c ∈ calls) :
    ⟨bracketUrl first.subject, bracketUrl c.uri, c.var⟩ ∈ branchTriples first calls := by
  refine List.mem_cons_of_mem _ (List.mem_map.mpr ⟨(c.uri, c.var), ?_, rfl⟩)
  exact List.mem_eraseDups.mpr (List.mem_map_of_mem (f := fun c : FunctionCall => (c.uri, c.var)) h)

/-- A branch whose triples fit is written. -/
theorem exists_branch {first : FunctionCall} {calls : List FunctionCall}
    (h : ∀ t ∈ branchTriples first calls, t.Fits) (key : String) :
    ∃ g, branch key first calls = .ok g := by
  obtain ⟨hAnchor, hBound⟩ := List.forall_mem_cons.mp h
  have hStart : checkTriple (.str (bracketUrl first.subject)) (.str (bracketUrl first.predicate))
      (.str (bracketUrl first.object)) = .ok first.anchor :=
    checkTriple_eq_ok_iff.mpr ⟨rfl, rfl, rfl, hAnchor⟩
  have hLoop (start : Draft) : ∃ d, (bindings calls).foldlM (fun (d : Draft) (uri, var) =>
      d.also (.str (bracketUrl first.subject)) (.str (bracketUrl uri)) (.str var)) start = .ok d :=
    exists_foldlM (fun pair hPair d =>
      ⟨_, Draft.also_of_fits (hBound _ (List.mem_map_of_mem hPair)) d⟩) start
  obtain ⟨d, hd⟩ := hLoop _
  simp only [branch, bind_eq_ok_iff]
  exact ⟨d.group, _, Draft.triple_eq_ok_iff.mpr ⟨_, hStart, rfl⟩, d, hd, rfl⟩

theorem branch_eq_ok {key : String} {first : FunctionCall} {calls : List FunctionCall} {g : Group}
    (h : branch key first calls = .ok g) :
    ∃ anchor triples, Branched first calls anchor triples ∧
      g.elements = (anchor :: triples).map .triple := by
  obtain ⟨rfl, hFits⟩ := branch_eq h
  refine ⟨_, _, ⟨⟨hFits _ List.mem_cons_self, fun _ => rfl, rfl, rfl⟩, ?_⟩, rfl⟩
  rw [List.forall₂_map_right_iff, List.forall₂_same]
  exact fun pair hPair =>
    ⟨hFits _ (List.mem_cons_of_mem _ (List.mem_map_of_mem hPair)), fun _ => rfl, rfl, rfl⟩

/-- The variable of every call of a branch is the object of a triple. -/
theorem Branched.var {first c : FunctionCall} {calls : List FunctionCall} {anchor : Triple}
    {triples : List Triple} (h : Branched first calls anchor triples) (hc : c ∈ calls) :
    Kind.acceptsAny Kind.forObject c.var = true := by
  have hPair : (c.uri, c.var) ∈ bindings calls :=
    List.mem_eraseDups.mpr (List.mem_map_of_mem (f := fun c : FunctionCall => (c.uri, c.var)) hc)
  obtain ⟨t, -, ht⟩ := exists_of_forall₂_left h.bound hPair
  have hObject := ht.fits.object
  rwa [ht.object] at hObject

-- ---------------------------------------------------------------------------
-- Selected calls
-- ---------------------------------------------------------------------------

/-- A call is left out if its item is there, else it is selected once its item has been checked. -/
theorem select_eq_ok {selected selected' : List FunctionCall} {c : FunctionCall}
    (h : select selected c = .ok selected') :
    (∃ d ∈ selected, d.selectItem = c.selectItem) ∧ selected' = selected ∨
      (∀ d ∈ selected, d.selectItem ≠ c.selectItem) ∧
        Kind.acceptsAny Kind.forSelect c.selectItem = true ∧ selected' = selected ++ [c] := by
  unfold select at h
  split at h
  · rename_i hThere
    cases h
    obtain ⟨d, hd, hSame⟩ := List.any_eq_true.mp hThere
    exact .inl ⟨⟨d, hd, beq_iff_eq.mp hSame⟩, rfl⟩
  · rename_i hNew
    obtain ⟨_, hCheck, rfl⟩ := map_eq_ok_iff.mp h
    obtain ⟨rfl, hAccepts⟩ := Kind.checkText_eq_ok_iff.mp hCheck
    exact .inr ⟨fun d hd hSame => hNew (List.any_eq_true.mpr ⟨d, hd, beq_iff_eq.mpr hSame⟩),
      hAccepts, rfl⟩

/-- Some calls are selected for others: they are among them, their items were accepted, and every
item of the others is one of theirs. -/
structure SelectedFor (calls selected : List FunctionCall) : Prop where
  sound : ∀ c ∈ selected, c ∈ calls ∧ Kind.acceptsAny Kind.forSelect c.selectItem = true
  complete : ∀ c ∈ calls, ∃ d ∈ selected, d.selectItem = c.selectItem

theorem selectedFor_of_foldlM {calls selected : List FunctionCall}
    (h : calls.foldlM select [] = .ok selected) : SelectedFor calls selected := by
  refine foldlM_along (I := SelectedFor) ?_ ⟨by simp, by simp⟩ h
  rintro done c - selected selected' hDone hStep
  obtain ⟨hThere, rfl⟩ | ⟨-, hAccepts, rfl⟩ := select_eq_ok hStep
  · -- an item that is there already selects nothing, a new one is put at the end
    refine ⟨fun d hd => ?_, fun d hd => ?_⟩
    · exact (hDone.sound d hd).imp_left fun hd => List.mem_append_left _ hd
    · rcases List.mem_append.mp hd with hd | hd
      · exact hDone.complete d hd
      · exact List.mem_singleton.mp hd ▸ hThere
  · refine ⟨fun d hd => ?_, fun d hd => ?_⟩
    · rcases List.mem_append.mp hd with hd | hd
      · exact (hDone.sound d hd).imp_left fun hd => List.mem_append_left _ hd
      · obtain rfl := List.mem_singleton.mp hd
        exact ⟨by simp, hAccepts⟩
    · rcases List.mem_append.mp hd with hd | hd
      · obtain ⟨x, hx, hSame⟩ := hDone.complete d hd
        exact ⟨x, List.mem_append_left _ hx, hSame⟩
      · exact ⟨c, by simp, by rw [List.mem_singleton.mp hd]⟩

/-- The selected items are the items of the calls, each at its first place. -/
theorem selectItem_of_foldlM {calls selected : List FunctionCall}
    (h : calls.foldlM select [] = .ok selected) :
    selected.map (·.selectItem) = (calls.map (·.selectItem)).eraseDups := by
  refine foldlM_along (I := fun done (selected : List FunctionCall) =>
    selected.map (·.selectItem) = (done.map (·.selectItem)).eraseDups) ?_ rfl h
  rintro done c - before after hDone hStep
  have hMem : c.selectItem ∈ before.map (·.selectItem) ↔ c.selectItem ∈ done.map (·.selectItem) :=
    by rw [hDone, List.mem_eraseDups]
  rw [List.map_append, List.map_singleton, eraseDups_concat]
  -- an item that is there already adds nothing to either side
  obtain ⟨⟨d, hd, hSame⟩, hKept⟩ | ⟨hNew, -, rfl⟩ := select_eq_ok hStep
  · rw [hKept, if_pos (List.contains_iff_mem.mpr (hMem.mp (List.mem_map.mpr ⟨d, hd, hSame⟩)))]
    exact hDone
  · rw [if_neg, List.map_append, hDone, List.map_singleton]
    rw [List.contains_iff_mem, ← hMem, List.mem_map]
    exact fun ⟨d, hd, hSame⟩ => hNew d hd hSame

/-- The aliases of the selected calls are those of all calls, each at its first place, whatever was
selected before: a call that is left out has the alias of the one it was left out for. -/
theorem resultVar_of_foldlM {calls selected : List FunctionCall} (items : List String)
    (h : calls.foldlM select [] = .ok selected) :
    (items ++ selected.map (·.resultVar)).eraseDups =
      (items ++ calls.map (·.resultVar)).eraseDups := by
  refine foldlM_along (I := fun done (selected : List FunctionCall) =>
    (items ++ selected.map (·.resultVar)).eraseDups =
      (items ++ done.map (·.resultVar)).eraseDups) ?_ rfl h
  rintro done c - before after hDone hStep
  rw [List.map_append, List.map_singleton, ← List.append_assoc]
  -- two calls with one item have one alias
  obtain ⟨⟨d, hd, hSame⟩, hKept⟩ | ⟨-, -, rfl⟩ := select_eq_ok hStep
  · have hThere : c.resultVar ∈ items ++ before.map (·.resultVar) :=
      List.mem_append_right _ (List.mem_map.mpr
        ⟨d, hd, FunctionCall.resultVar_eq_of_selectItem_eq hSame⟩)
    rw [← List.mem_eraseDups, hDone, List.mem_eraseDups] at hThere
    rw [hKept, eraseDups_concat_of_mem hThere, hDone]
  · rw [List.map_append, List.map_singleton, ← List.append_assoc]
    exact eraseDups_append_congr hDone _

/-- The branch of a key with its calls. -/
def IsBranchOf (entry : String × List FunctionCall) (g : Group) : Prop :=
  ∃ first more, entry.2 = first :: more ∧ branch entry.1 first entry.2 = .ok g

/-- Each key gives a branch, and all calls are gone through in order to select them. -/
theorem collect_eq_ok {entries : List (String × List FunctionCall)}
    {selected selected' : List FunctionCall} {groups : List Group}
    (hSome : ∀ entry ∈ entries, entry.2 ≠ [])
    (h : collect entries selected = .ok (groups, selected')) :
    List.Forall₂ IsBranchOf entries groups ∧
      (entries.flatMap (·.2)).foldlM select selected = .ok selected' := by
  -- induction on the entries, with the calls selected before them as they are then
  induction entries generalizing selected groups with
  | nil =>
    rw [collect] at h
    cases h
    exact ⟨.nil, rfl⟩
  | cons entry rest ih =>
    obtain ⟨key, calls⟩ := entry
    cases calls with
    | nil => exact absurd rfl (hSome _ List.mem_cons_self)
    | cons first more =>
      simp only [collect, bind_eq_ok_iff] at h
      obtain ⟨group, hGroup, after, hAfter, ⟨others, last⟩, hRest, h⟩ := h
      cases h
      obtain ⟨hBranches, hSelected⟩ := ih (fun e he => hSome e (List.mem_cons_of_mem _ he)) hRest
      refine ⟨.cons ⟨first, more, rfl, hGroup⟩ hBranches, ?_⟩
      rw [List.flatMap_cons, List.foldlM_append, bind_eq_ok_iff]
      exact ⟨after, hAfter, hSelected⟩

-- ---------------------------------------------------------------------------
-- The sub-query
-- ---------------------------------------------------------------------------

/-- A sub-query computes some calls: there is a branch for each key, and the items of the calls are
selected. -/
structure Computes (calls : List FunctionCall) (groups : List Group)
    (selected : List FunctionCall) (a : Aggregation) : Prop where
  branches : List.Forall₂ IsBranchOf (FunctionCall.grouped calls) groups
  chosen : SelectedFor calls selected
  selects : ((FunctionCall.grouped calls).flatMap (·.2)).foldlM select [] = .ok selected
  shape : a = ofBranches (sameVars (FunctionCall.grouped calls)) groups selected

/-- There is a sub-query exactly if there is a call, and it computes the calls. -/
theorem aggregation_computes {calls : List FunctionCall} {result : Option Aggregation}
    (h : (aggregation (FunctionCall.grouped calls)).outcome = .ok result) :
    calls = [] ∧ result = none ∨
      ∃ a groups selected, result = some a ∧ Computes calls groups selected a := by
  have hMade := aggregation_eq_ok h
  -- grouping leaves no key without a call, so the filter on empty groups keeps all of them
  rw [List.filter_eq_self.mpr ?hAll] at hMade
  case hAll => exact fun entry hEntry => by simpa using FunctionCall.grouped_ne_nil hEntry
  rcases hMade with ⟨hNone, rfl⟩ | ⟨groups, selected, hCollect, rfl⟩
  · refine .inl ⟨List.eq_nil_iff_forall_not_mem.mpr fun c hc => ?_, rfl⟩
    have hMem := FunctionCall.mem_flatMap_grouped.mpr hc
    rw [hNone] at hMem
    cases hMem
  · obtain ⟨hBranches, hSelected⟩ :=
      collect_eq_ok (fun _ hEntry => FunctionCall.grouped_ne_nil hEntry) hCollect
    have hFor := selectedFor_of_foldlM hSelected
    refine .inr ⟨_, groups, selected, rfl, hBranches, ⟨fun c hc => ?_, fun c hc => ?_⟩, hSelected,
      rfl⟩
    · exact (hFor.sound c hc).imp_left FunctionCall.mem_flatMap_grouped.mp
    · exact hFor.complete c (FunctionCall.mem_flatMap_grouped.mpr hc)

/-- The variable of every call is the object of a triple in the sub-query. -/
theorem Computes.var {calls selected : List FunctionCall} {groups : List Group} {a : Aggregation}
    {c : FunctionCall} (h : Computes calls groups selected a) (hc : c ∈ calls) :
    Kind.acceptsAny Kind.forObject c.var = true := by
  obtain ⟨entry, hEntry, hMem⟩ := List.mem_flatMap.mp (FunctionCall.mem_flatMap_grouped.mpr hc)
  obtain ⟨g, -, first, more, -, hBranch⟩ := exists_of_forall₂_left h.branches hEntry
  obtain ⟨anchor, triples, hBranched, -⟩ := branch_eq_ok hBranch
  exact hBranched.var hMem

/-- The sub-query selects the items of the calls in the order of their groups, each once. -/
theorem Computes.projection {calls selected : List FunctionCall} {groups : List Group}
    {a : Aggregation} (h : Computes calls groups selected a) : a.query.projection =
      (((FunctionCall.grouped calls).flatMap (·.2)).map (·.selectItem)).eraseDups := by
  rw [h.shape, ← selectItem_of_foldlM h.selects]
  rfl

/-- The aliases are those of the calls in the order of their groups, each once. -/
theorem Computes.aliases {calls selected : List FunctionCall} {groups : List Group}
    {a : Aggregation} (h : Computes calls groups selected a) (items : List String) :
    (items ++ a.aliases).eraseDups =
      (items ++ ((FunctionCall.grouped calls).flatMap (·.2)).map (·.resultVar)).eraseDups := by
  rw [h.shape, ← resultVar_of_foldlM items h.selects]
  rfl

/-- The pattern of the sub-query holds what the branches of the keys hold. -/
theorem Computes.everywhere {P : Element → Prop} {calls selected : List FunctionCall}
    {groups : List Group} {a : Aggregation} (h : Computes calls groups selected a)
    (hUnion : ∀ groups : List Group, P (.union (groups.map .group)))
    (hNested : ∀ g : Group, P (.nested (.group g))) (hGroups : ∀ g ∈ groups, g.Everywhere P) :
    a.query.body.Everywhere P := by
  rw [h.shape]
  change (join _ groups).1.Everywhere P
  unfold join
  split
  · exact Group.everywhere_empty
  · exact hGroups _ (List.mem_singleton_self _)
  · split
    · simpa [hUnion] using hGroups
    · simpa [hNested] using hGroups

end Aggregation

end SparqlSelect
