import SparqlSelect.Proofs.Compile.Aggregates

/-!
# The sub-query of groups of calls

A sub-query of aggregates is known from its groups. Groups without calls do not count. Each of the
others gives a branch, the items of all calls are selected, and the branches stand by themselves,
in one union or one after another. A union is made only of groups that aggregate the same variables,
so there each branch binds the variable of each selected item, although the item may have been asked
for in another group.

How often a call stands in its group and where is lost in the comparison of the variables, and so is
the order of the groups.

* `Gathers`, `aggregation_eq_some_iff` — what a sub-query is made of, and when there is one.
* `branchOf` — the branch of a group.
* `sameVars_iff` — the comparison that decides between a union and a sequence.
* `Rearranged` — groups and calls in another order, calls any number of times.
* `aggregation_pattern` — the whole pattern.
-/

namespace SparqlSelect

namespace Aggregation

section

variable {groups groups' : List (String × List FunctionCall)} {entry : String × List FunctionCall}
  {a : Aggregation} {branches : List Group} {selected : List FunctionCall}

-- ---------------------------------------------------------------------------
-- What a sub-query is made of
-- ---------------------------------------------------------------------------

/-- The groups that have a call. -/
def asked (groups : List (String × List FunctionCall)) : List (String × List FunctionCall) :=
  groups.filter fun (_, calls) => !calls.isEmpty

theorem mem_asked : entry ∈ asked groups ↔ entry ∈ groups ∧ entry.2 ≠ [] := by
  simp [asked]

/-- The calls are those of the groups that have a call. -/
theorem flatMap_asked (groups : List (String × List FunctionCall)) :
    (asked groups).flatMap (·.2) = groups.flatMap (·.2) := by
  induction groups with
  | nil => rfl
  | cons entry rest ih =>
    obtain ⟨key, calls⟩ := entry
    rw [List.flatMap_cons, ← ih]
    cases calls <;> rfl

/-- A sub-query is gathered from some groups: each group with a call has its branch, and the calls
of all groups were gone through in order to select them. -/
structure Gathers (groups : List (String × List FunctionCall)) (branches : List Group)
    (selected : List FunctionCall) (a : Aggregation) : Prop where
  someAsked : asked groups ≠ []
  written : List.Forall₂ IsBranchOf (asked groups) branches
  selects : (groups.flatMap (·.2)).foldlM select [] = .ok selected
  shape : a = ofBranches (sameVars (asked groups)) branches selected

/-- Branches that can be written and calls that can be selected are collected. -/
theorem collect_of_branches {entries : List (String × List FunctionCall)}
    {before after : List FunctionCall} (hBranches : List.Forall₂ IsBranchOf entries branches)
    (hSelects : (entries.flatMap (·.2)).foldlM select before = .ok after) :
    collect entries before = .ok (branches, after) := by
  -- induction on the entries, with the calls selected so far as the parameter
  induction hBranches generalizing before with
  | nil =>
    cases hSelects
    rfl
  | @cons entry g entries branches hBranch _ ih =>
    obtain ⟨first, more, hCalls, hBranch⟩ := hBranch
    obtain ⟨key, calls⟩ := entry
    dsimp only at hCalls
    subst hCalls
    rw [List.flatMap_cons, List.foldlM_append, bind_eq_ok_iff] at hSelects
    obtain ⟨next, hNext, hRest⟩ := hSelects
    simp only [collect, bind_eq_ok_iff]
    exact ⟨g, hBranch, next, hNext, _, ih hRest, rfl⟩

/-- There is no sub-query exactly if no group has a call. -/
theorem aggregation_eq_none_iff : (aggregation groups).outcome = .ok none ↔ asked groups = [] := by
  constructor
  · intro h
    obtain ⟨hNone, -⟩ | ⟨_, _, -, hSome⟩ := aggregation_eq_ok h
    · exact hNone
    · cases hSome
  · intro hNone
    have hEmpty : (groups.filter fun (_, calls) => !calls.isEmpty).isEmpty = true :=
      List.isEmpty_iff.mpr hNone
    rw [aggregation, hEmpty, if_pos rfl]
    rfl

/-- There is a sub-query exactly if one can be gathered. -/
theorem aggregation_eq_some_iff :
    (aggregation groups).outcome = .ok (some a) ↔
      ∃ branches selected, Gathers groups branches selected a := by
  constructor
  · -- a run that gathers is read step by step, and the same steps put it together again
    intro h
    obtain ⟨-, hNone⟩ | ⟨branches, selected, hCollect, hSome⟩ := aggregation_eq_ok h
    · cases hNone
    obtain ⟨hBranches, hSelects⟩ :=
      collect_eq_ok (fun entry hEntry => (mem_asked.mp hEntry).2) hCollect
    cases hSome
    refine ⟨branches, selected, fun hNone => ?_, hBranches, flatMap_asked groups ▸ hSelects, rfl⟩
    rw [aggregation_eq_none_iff.mpr hNone] at h
    cases h
  · rintro ⟨branches, selected, hSome, hBranches, hSelects, rfl⟩
    have hCollect : collect (asked groups) [] = .ok (branches, selected) :=
      collect_of_branches hBranches (by rw [flatMap_asked]; exact hSelects)
    have hEmpty : (groups.filter fun (_, calls) => !calls.isEmpty).isEmpty = false :=
      List.isEmpty_eq_false_iff.mpr hSome
    rw [aggregation, hEmpty, if_neg Bool.false_ne_true]
    simp only [Traced.outcome_bind, Traced.outcome_lift, bind_eq_ok_iff]
    refine ⟨_, hCollect, ?_⟩
    split <;> rfl

-- ---------------------------------------------------------------------------
-- Branches
-- ---------------------------------------------------------------------------

/-- The branch of a group: the triple of its first call, and then one triple for each distinct pair
of an IRI and a variable, in the order in which they are first asked for. -/
def branchOf : String × List FunctionCall → Group
  | (key, []) => .empty (some key)
  | (key, first :: more) => ⟨some key, (branchTriples first (first :: more)).map .triple⟩

/-- The triple that the branch of a group starts with. -/
def anchor? (entry : String × List FunctionCall) : Option Triple :=
  entry.2.head?.map FunctionCall.anchor

theorem IsBranchOf.eq {g : Group} (h : IsBranchOf entry g) : g = branchOf entry := by
  obtain ⟨first, more, hCalls, hBranch⟩ := h
  obtain ⟨key, calls⟩ := entry
  dsimp only at hCalls
  subst hCalls
  exact (branch_eq hBranch).1

theorem eq_map_branchOf (h : List.Forall₂ IsBranchOf groups branches) :
    branches = groups.map branchOf := by
  induction h with
  | nil => rfl
  | cons hBranch _ ih => rw [hBranch.eq, ih, List.map_cons]

/-- The branch of a group binds the variable of each of its calls. -/
theorem exists_triple_branchOf {c : FunctionCall} (h : c ∈ entry.2) :
    ∃ t ∈ (branchOf entry).triples, t.object = c.var := by
  obtain ⟨key, calls⟩ := entry
  cases calls with
  | nil => cases h
  | cons first more =>
    refine ⟨⟨bracketUrl first.subject, bracketUrl c.uri, c.var⟩, ?_, rfl⟩
    simpa [branchOf, Group.triples, List.filterMap_map] using mem_branchTriples first h

-- ---------------------------------------------------------------------------
-- The same variables
-- ---------------------------------------------------------------------------

/-- Any two of the groups aggregate the same variables. -/
def AggregateAlike (groups : List (String × List FunctionCall)) : Prop :=
  ∀ entry ∈ groups, ∀ other ∈ groups, ∀ c ∈ entry.2, ∃ d ∈ other.2, d.var = c.var

theorem sameMembers_iff {xs ys : List String} :
    sameMembers xs ys = true ↔ ∀ x, x ∈ xs ↔ x ∈ ys := by
  simp only [sameMembers, Bool.and_eq_true, List.all_eq_true, List.contains_iff_mem]
  exact ⟨fun ⟨h, h'⟩ x => ⟨h x, h' x⟩, fun h => ⟨fun x => (h x).mp, fun x => (h x).mpr⟩⟩

/-- The variables of all groups are compared with those of the first one, which is enough. -/
theorem sameVars_iff : sameVars groups = true ↔ AggregateAlike groups := by
  have hAlike : AggregateAlike groups ↔ ∀ entry ∈ groups, ∀ other ∈ groups, ∀ v,
      v ∈ entry.2.map (·.var) → v ∈ other.2.map (·.var) := by
    simp [AggregateAlike]
  rw [hAlike]
  cases groups with
  | nil => simp [sameVars]
  | cons first rest =>
    simp only [sameVars, List.map_cons, List.all_map, List.all_eq_true, Function.comp_apply,
      sameMembers_iff]
    constructor
    · intro h
      -- with the first group as the middle term, all groups agree with each other
      have hFirst : ∀ entry ∈ first :: rest, ∀ v,
          v ∈ first.2.map (·.var) ↔ v ∈ entry.2.map (·.var) :=
        List.forall_mem_cons.mpr ⟨fun _ => Iff.rfl, h⟩
      exact fun entry hEntry other hOther v hv =>
        (hFirst other hOther v).mp ((hFirst entry hEntry v).mpr hv)
    · intro h entry hEntry v
      have hRest := List.mem_cons_of_mem first hEntry
      exact ⟨h _ List.mem_cons_self _ hRest v, h _ hRest _ List.mem_cons_self v⟩

/-- A union is left out if there are several branches that are not to be united. -/
theorem unionSuppressed_ofBranches (unite : Bool) (branches : List Group)
    (selected : List FunctionCall) :
    (ofBranches unite branches selected).unionSuppressed =
      (!unite && decide (2 ≤ branches.length)) := by
  match branches with
  | [] => simp [ofBranches, join]
  | [_] => simp [ofBranches, join]
  | _ :: _ :: _ => cases unite <;> simp [ofBranches, join]

theorem Gathers.unionSuppressed_eq_true_iff (h : Gathers groups branches selected a) :
    a.unionSuppressed = true ↔ 2 ≤ (asked groups).length ∧ ¬ AggregateAlike (asked groups) := by
  rw [h.shape, unionSuppressed_ofBranches, ← sameVars_iff, ← h.written.length_eq]
  simp [and_comm]

-- ---------------------------------------------------------------------------
-- Groups in another order
-- ---------------------------------------------------------------------------

/-- A group with its calls in another order and any number of times. -/
def Reshuffled (entry entry' : String × List FunctionCall) : Prop :=
  entry'.1 = entry.1 ∧ ∀ c, c ∈ entry'.2 ↔ c ∈ entry.2

/-- Groups in another order, each of them reshuffled. -/
def Rearranged (groups groups' : List (String × List FunctionCall)) : Prop :=
  ∃ between, groups.Perm between ∧ List.Forall₂ Reshuffled between groups'

theorem Reshuffled.ne_nil_iff {entry' : String × List FunctionCall}
    (h : Reshuffled entry entry') : entry'.2 ≠ [] ↔ entry.2 ≠ [] := by
  refine not_congr ?_
  rw [List.eq_nil_iff_forall_not_mem, List.eq_nil_iff_forall_not_mem]
  exact forall_congr' fun c => not_congr (h.2 c)

theorem Rearranged.asked (h : Rearranged groups groups') :
    Rearranged (asked groups) (asked groups') := by
  obtain ⟨between, hPerm, hEach⟩ := h
  refine ⟨Aggregation.asked between, hPerm.filter _, List.rel_filter ?_ hEach⟩
  intro entry entry' hEntry
  simpa only [Bool.not_eq_true', List.isEmpty_eq_false_iff] using hEntry.ne_nil_iff.symm

theorem Rearranged.length_eq (h : Rearranged groups groups') : groups'.length = groups.length := by
  obtain ⟨between, hPerm, hEach⟩ := h
  rw [← hEach.length_eq, hPerm.length_eq]

/-- Each group comes from a group with the same calls. -/
theorem Rearranged.exists_of_mem (h : Rearranged groups groups')
    {entry' : String × List FunctionCall} (hEntry : entry' ∈ groups') :
    ∃ entry ∈ groups, Reshuffled entry entry' := by
  obtain ⟨between, hPerm, hEach⟩ := h
  obtain ⟨entry, hMem, hSame⟩ := exists_of_forall₂_right hEach hEntry
  exact ⟨entry, hPerm.mem_iff.mpr hMem, hSame⟩

theorem Rearranged.exists_of_mem_left (h : Rearranged groups groups') (hEntry : entry ∈ groups) :
    ∃ entry' ∈ groups', Reshuffled entry entry' := by
  obtain ⟨between, hPerm, hEach⟩ := h
  exact exists_of_forall₂_left hEach (hPerm.mem_iff.mp hEntry)

/-- Rearranged groups aggregate the same variables if the groups do. -/
theorem Rearranged.aggregateAlike_iff (h : Rearranged groups groups') :
    AggregateAlike groups' ↔ AggregateAlike groups := by
  constructor
  · intro hAlike entry hEntry other hOther c hc
    obtain ⟨entry', hEntry', hSame⟩ := h.exists_of_mem_left hEntry
    obtain ⟨other', hOther', hOtherSame⟩ := h.exists_of_mem_left hOther
    obtain ⟨d, hd, hVar⟩ := hAlike entry' hEntry' other' hOther' c ((hSame.2 c).mpr hc)
    exact ⟨d, (hOtherSame.2 d).mp hd, hVar⟩
  · intro hAlike entry' hEntry' other' hOther' c hc
    obtain ⟨entry, hEntry, hSame⟩ := h.exists_of_mem hEntry'
    obtain ⟨other, hOther, hOtherSame⟩ := h.exists_of_mem hOther'
    obtain ⟨d, hd, hVar⟩ := hAlike entry hEntry other hOther c ((hSame.2 c).mp hc)
    exact ⟨d, (hOtherSame.2 d).mpr hd, hVar⟩

/-- Calls can be selected if each of their items is accepted. -/
theorem exists_selected {calls : List FunctionCall}
    (h : ∀ c ∈ calls, Kind.acceptsAny Kind.forSelect c.selectItem = true) :
    ∃ selected, calls.foldlM select [] = .ok selected := by
  refine exists_foldlM (fun c hc before => ?_) []
  unfold select
  split
  · exact ⟨before, rfl⟩
  · exact ⟨_, map_eq_ok_iff.mpr ⟨_, Kind.checkText_eq_ok_iff.mpr ⟨rfl, h c hc⟩, rfl⟩⟩

/-- The branch of a group with other calls can be written if the group has all of them and it starts
with the same triple. -/
theorem exists_isBranchOf {g : Group} {entry' : String × List FunctionCall}
    (h : IsBranchOf entry g) (hSame : Reshuffled entry entry')
    (hAnchor : anchor? entry' = anchor? entry) : ∃ g', IsBranchOf entry' g' := by
  obtain ⟨first, more, hCalls, hBranch⟩ := h
  obtain ⟨key, calls⟩ := entry'
  obtain ⟨key', calls'⟩ := entry
  dsimp only at hCalls hBranch
  subst hCalls
  cases calls with
  | nil => cases hAnchor
  | cons first' more' =>
    have hFirst : first'.anchor = first.anchor := by simpa [anchor?] using hAnchor
    have hSubject : bracketUrl first'.subject = bracketUrl first.subject :=
      congrArg Triple.subject hFirst
    -- the triples are those of the other order: the anchor is the same, and so are the pairs
    have hFits : ∀ t ∈ branchTriples first' (first' :: more'), t.Fits := by
      have hAnchorFits := (branch_eq hBranch).2 _ List.mem_cons_self
      refine List.forall_mem_cons.mpr ⟨hFirst ▸ hAnchorFits, fun t ht => ?_⟩
      obtain ⟨pair, hPair, rfl⟩ := List.mem_map.mp ht
      obtain ⟨c, hc, rfl⟩ := List.mem_map.mp (List.mem_eraseDups.mp hPair)
      dsimp only
      rw [hSubject]
      exact (branch_eq hBranch).2 _ (mem_branchTriples first ((hSame.2 c).mp hc))
    obtain ⟨g', hg'⟩ := exists_branch hFits key
    exact ⟨g', first', more', rfl, hg'⟩

/-- There is a sub-query of rearranged groups if each of them keeps the triple it starts with. -/
theorem Gathers.rearranged (h : Gathers groups branches selected a)
    (hGroups : Rearranged groups groups')
    (hAnchors : ∀ entry' ∈ groups', ∃ entry ∈ groups, Reshuffled entry entry' ∧
      anchor? entry' = anchor? entry) :
    ∃ branches' selected' a', Gathers groups' branches' selected' a' := by
  have hSome : Aggregation.asked groups' ≠ [] := by
    rw [← List.length_pos_iff, hGroups.asked.length_eq, List.length_pos_iff]
    exact h.someAsked
  -- each entry that asks for something has a branch in the first order, so it has one in the second
  have hBranches : ∃ branches', List.Forall₂ IsBranchOf (Aggregation.asked groups') branches' := by
    refine exists_forall₂ fun entry' hEntry' => ?_
    obtain ⟨hMem, hCalls⟩ := mem_asked.mp hEntry'
    obtain ⟨entry, hEntry, hSame, hAnchor⟩ := hAnchors entry' hMem
    obtain ⟨g, -, hg⟩ := exists_of_forall₂_left h.written
      (mem_asked.mpr ⟨hEntry, hSame.ne_nil_iff.mp hCalls⟩)
    exact exists_isBranchOf hg hSame hAnchor
  have hSelects : ∃ selected', (groups'.flatMap (·.2)).foldlM select [] = .ok selected' := by
    refine exists_selected fun c hc => ?_
    -- whether a call can be selected does not depend on the calls before it
    obtain ⟨entry', hEntry', hc⟩ := List.mem_flatMap.mp hc
    obtain ⟨entry, hEntry, hSame⟩ := hGroups.exists_of_mem hEntry'
    have hFor := selectedFor_of_foldlM h.selects
    obtain ⟨d, hd, hItem⟩ :=
      hFor.complete c (List.mem_flatMap.mpr ⟨entry, hEntry, (hSame.2 c).mp hc⟩)
    exact hItem ▸ (hFor.sound d hd).2
  obtain ⟨branches', hBranches⟩ := hBranches
  obtain ⟨selected', hSelects⟩ := hSelects
  exact ⟨branches', selected', _, hSome, hBranches, hSelects, rfl⟩

-- ---------------------------------------------------------------------------
-- The whole pattern
-- ---------------------------------------------------------------------------

/-- One branch is the pattern, and several are united or stand one after another. -/
theorem Gathers.body (h : Gathers groups branches selected a) :
    (∃ only, asked groups = [only] ∧ a.query.body = branchOf only ∧ a.unionSuppressed = false) ∨
    (2 ≤ (asked groups).length ∧ AggregateAlike (asked groups) ∧
      a.query.body = ⟨none, [.union ((asked groups).map fun entry => .group (branchOf entry))]⟩ ∧
      a.unionSuppressed = false) ∨
    (2 ≤ (asked groups).length ∧ ¬ AggregateAlike (asked groups) ∧
      a.query.body = ⟨none, (asked groups).map fun entry => .nested (.group (branchOf entry))⟩ ∧
      a.unionSuppressed = true) := by
  have hBranches := eq_map_branchOf h.written
  rw [h.shape, ← sameVars_iff]
  -- none is out, as something is asked for; one is the body itself
  match hAsked : asked groups with
  | [] => exact absurd hAsked h.someAsked
  | [only] =>
    rw [hAsked] at hBranches
    subst hBranches
    exact .inl ⟨only, rfl, rfl, rfl⟩
  | first :: second :: more =>
    rw [hAsked] at hBranches
    subst hBranches
    refine .inr ?_
    cases sameVars (first :: second :: more) <;> simp [ofBranches, join, Function.comp_def]

/-- The items of all calls are selected, each at its first place. -/
theorem Gathers.projection (h : Gathers groups branches selected a) :
    a.query.projection = ((groups.flatMap (·.2)).map (·.selectItem)).eraseDups := by
  rw [h.shape, ← selectItem_of_foldlM h.selects]
  rfl

/-- Unless a union is left out, each branch binds the variables of all calls. -/
theorem Gathers.binds (h : Gathers groups branches selected a) (hUnited : a.unionSuppressed = false)
    {c : FunctionCall} (hc : c ∈ groups.flatMap (·.2)) (hEntry : entry ∈ asked groups) :
    ∃ t ∈ (branchOf entry).triples, t.object = c.var := by
  rw [← flatMap_asked] at hc
  obtain ⟨own, hOwn, hc⟩ := List.mem_flatMap.mp hc
  -- a call of the branch itself, or else one that the comparison finds there
  suffices hThere : ∃ d ∈ entry.2, d.var = c.var by
    obtain ⟨d, hd, hVar⟩ := hThere
    obtain ⟨t, ht, hObject⟩ := exists_triple_branchOf hd
    exact ⟨t, ht, hObject.trans hVar⟩
  obtain ⟨only, hOnly, -⟩ | ⟨-, hAlike, -⟩ | ⟨-, -, -, hSuppressed⟩ := h.body
  · rw [hOnly, List.mem_singleton] at hEntry hOwn
    exact ⟨c, hEntry ▸ hOwn ▸ hc, rfl⟩
  · exact hAlike own hOwn entry hEntry c hc
  · rw [hUnited] at hSuppressed
    cases hSuppressed

/-- Whether a union is left out does not depend on the order of the groups and of their calls, or on
how often a call is there. -/
theorem Gathers.unionSuppressed_eq {branches' : List Group} {selected' : List FunctionCall}
    {a' : Aggregation} (h : Gathers groups branches selected a)
    (h' : Gathers groups' branches' selected' a') (hGroups : Rearranged groups groups') :
    a'.unionSuppressed = a.unionSuppressed := by
  rw [Bool.eq_iff_iff, h.unionSuppressed_eq_true_iff, h'.unionSuppressed_eq_true_iff,
    hGroups.asked.length_eq, hGroups.asked.aggregateAlike_iff]

/-- **The pattern of the aggregates.** It has one branch for each group with a call, in their order:
the branch itself if there is one, one union of them if all groups aggregate the same variables, and
otherwise one after another, and then a union is left out. Each item that is asked for is selected
once. Unless a union is left out, each branch binds the variables of all items.

However the groups and their calls are rearranged, a union is left out of both sub-queries or of
neither; and there is a sub-query again if each group keeps the triple that it starts with. -/
theorem aggregation_pattern (h : (aggregation groups).outcome = .ok (some a)) :
    ((∃ only, asked groups = [only] ∧ a.query.body = branchOf only ∧ a.unionSuppressed = false) ∨
    (2 ≤ (asked groups).length ∧ AggregateAlike (asked groups) ∧
      a.query.body = ⟨none, [.union ((asked groups).map fun entry => .group (branchOf entry))]⟩ ∧
      a.unionSuppressed = false) ∨
    (2 ≤ (asked groups).length ∧ ¬ AggregateAlike (asked groups) ∧
      a.query.body = ⟨none, (asked groups).map fun entry => .nested (.group (branchOf entry))⟩ ∧
      a.unionSuppressed = true)) ∧
    a.query.projection = ((groups.flatMap (·.2)).map (·.selectItem)).eraseDups ∧
    (a.unionSuppressed = false → ∀ c ∈ groups.flatMap (·.2), ∀ entry ∈ asked groups,
      ∃ t ∈ (branchOf entry).triples, t.object = c.var) ∧
    ∀ groups', Rearranged groups groups' →
      (∀ result, (aggregation groups').outcome = .ok result →
        ∃ a', result = some a' ∧ a'.unionSuppressed = a.unionSuppressed) ∧
      ((∀ entry' ∈ groups', ∃ entry ∈ groups, Reshuffled entry entry' ∧
        anchor? entry' = anchor? entry) → ∃ a', (aggregation groups').outcome = .ok (some a')) := by
  obtain ⟨branches, selected, hGathers⟩ := aggregation_eq_some_iff.mp h
  refine ⟨hGathers.body, hGathers.projection,
    fun hUnited c hc entry hEntry => hGathers.binds hUnited hc hEntry,
    fun groups' hGroups => ⟨fun result hResult => ?_, fun hAnchors => ?_⟩⟩
  · cases result with
    | none =>
      -- the groups would have no call either
      have hLength := hGroups.asked.length_eq
      rw [aggregation_eq_none_iff.mp hResult, List.length_nil, eq_comm,
        List.length_eq_zero_iff] at hLength
      exact absurd hLength hGathers.someAsked
    | some a' =>
      obtain ⟨branches', selected', hGathers'⟩ := aggregation_eq_some_iff.mp hResult
      exact ⟨a', rfl, hGathers.unionSuppressed_eq hGathers' hGroups⟩
  · obtain ⟨branches', selected', a', hGathers'⟩ := hGathers.rearranged hGroups hAnchors
    exact ⟨a', aggregation_eq_some_iff.mpr ⟨branches', selected', hGathers'⟩⟩

/-- A call for a function of a variable that a station has for an IRI. -/
def stationCall (function var uri key : String) : FunctionCall where
  category := .aggregate
  function := function
  var := var
  uri := uri
  subject := "?st"
  predicate := key
  object := "?o"
  key := key

/-- Two groups with other variables, one of them with a call that is there twice, and a group
without calls between them. -/
def stationGroups : List (String × List FunctionCall) := [
  ("x:p", [stationCall "AVG" "?depth" "x:depth" "x:p", stationCall "MAX" "?depth" "x:depth" "x:p",
    stationCall "AVG" "?depth" "x:depth" "x:p"]),
  ("x:e", []),
  ("x:q", [stationCall "MIN" "?ph" "x:ph" "x:q"])]

/-- The two groups stand one after another, and that is so in the reverse order. -/
theorem aggregation_pattern_station :
    ∃ a a', (aggregation stationGroups).outcome = .ok (some a) ∧
      (aggregation stationGroups.reverse).outcome = .ok (some a') ∧
      a.query.body =
        ⟨none, (asked stationGroups).map fun entry => .nested (.group (branchOf entry))⟩ ∧
      a'.unionSuppressed = true := by
  have hRun : (aggregation stationGroups).outcome.toOption.join.map (·.unionSuppressed) =
      some true := by decide +kernel
  obtain ⟨a, hSome, hSuppressed⟩ := Option.map_eq_some_iff.mp hRun
  have hOutcome := join_toOption_eq_some_iff.mp hSome
  obtain ⟨hBody, -, -, hOthers⟩ := aggregation_pattern hOutcome
  have hReverse : Rearranged stationGroups stationGroups.reverse :=
    ⟨stationGroups.reverse, (List.reverse_perm _).symm,
      List.forall₂_same.mpr fun _ _ => ⟨rfl, fun _ => Iff.rfl⟩⟩
  obtain ⟨hSame, hAgain⟩ := hOthers _ hReverse
  obtain ⟨a', hOutcome'⟩ := hAgain fun entry hEntry =>
    ⟨entry, List.mem_reverse.mp hEntry, ⟨rfl, fun _ => Iff.rfl⟩, rfl⟩
  obtain ⟨_, hResult, hUnion⟩ := hSame _ hOutcome'
  cases hResult
  refine ⟨a, a', hOutcome, hOutcome', ?_, hUnion.trans hSuppressed⟩
  -- without the union the suppression would not have been reported
  obtain ⟨_, -, -, hNot⟩ | ⟨-, -, -, hNot⟩ | ⟨-, -, hBody, -⟩ := hBody
  · rw [hSuppressed] at hNot
    cases hNot
  · rw [hSuppressed] at hNot
    cases hNot
  · exact hBody

end

end Aggregation

end SparqlSelect
