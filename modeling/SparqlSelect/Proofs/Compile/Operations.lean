import SparqlSelect.Proofs.Compile.Build
import SparqlSelect.Proofs.Compile.Injection
import SparqlSelect.Proofs.Query.ModifierOrder

/-!
# Operations on a query

A query is worked on by many operations, of which only one touches its modifiers. Whatever comes
between, the modifiers are those that were set, one after another, on top of those the query had.
So they depend on the last one set of each kind only, and what is written of them does not even show
in which order these were set.

* `SelectQuery.Operation`, `SelectQuery.after` — what can be done to a query, and what comes of it.
* `SelectQuery.modifiers_after` — the modifiers after some operations.
* `SelectQuery.modifiers_of_operations` — which ones these are, and how they are written.
-/

namespace SparqlSelect

open Modifier

namespace SelectQuery

/-- What can be done to a query. -/
inductive Operation where
  /-- A modifier is set. -/
  | set (m : Modifier)
  /-- One more item is selected. -/
  | select (item : String)
  /-- Anything is done to the pattern. -/
  | edit (change : Group → Group)
  /-- The names that may be used are replaced. -/
  | declare (prefixes : List (Json × Json))
  /-- Equal solutions are merged, or no longer so. -/
  | distinguish (distinct : Bool)
  /-- Aggregates are added; if that fails nothing is. -/
  | aggregate (groups : List (String × List FunctionCall))
  /-- Temporal functions are injected, up to the first that fails. -/
  | inject (calls : List FunctionCall)

/-- The modifier that an operation sets, if it sets one. -/
def Operation.set? : Operation → Option Modifier
  | set m => some m
  | _ => none

/-- The query after an operation. -/
def Operation.apply (q : SelectQuery) : Operation → SelectQuery
  | set m => q.setModifier m
  | select item => q.project item
  | edit change => { q with body := change q.body }
  | declare prefixes => { q with prefixes }
  | distinguish distinct => { q with distinct }
  | aggregate groups =>
    match (q.withAggregates groups).outcome with
    | .ok (extended, _) => extended
    | .error _ => q
  | inject calls => (Injection.run calls (.start q)).1.query

/-- The query after some operations. -/
def after (q : SelectQuery) (operations : List Operation) : SelectQuery :=
  operations.foldl Operation.apply q

/-- The modifier of a kind that some operations set last. -/
def lastSet? (operations : List Operation) (kind : ModifierKind) : Option Modifier :=
  Modifier.last? (operations.filterMap Operation.set?) kind

-- ---------------------------------------------------------------------------
-- One operation
-- ---------------------------------------------------------------------------

theorem modifiers_withAggregates {q extended : SelectQuery}
    {groups : List (String × List FunctionCall)} {agg : Option Aggregation}
    (h : (q.withAggregates groups).outcome = .ok (extended, agg)) :
    extended.modifiers = q.modifiers := by
  obtain ⟨-, rfl⟩ := withAggregates_eq_ok h
  cases agg with
  | none => rfl
  | some a => exact modifiers_extend q a

theorem modifiers_run (calls : List FunctionCall) (q : SelectQuery) :
    (Injection.run calls (.start q)).1.query.modifiers = q.modifiers := by
  refine Injection.run_keeps (I := fun p => p.modifiers = q.modifiers) ?_ rfl
  intro c _ p p' done hSame hInject
  exact (inject_same hInject).2.trans hSame

/-- Only setting a modifier changes the modifiers. -/
theorem Operation.modifiers_apply (q : SelectQuery) (o : Operation) :
    (o.apply q).modifiers = Modifier.setAll q.modifiers o.set?.toList := by
  -- only one operation sets a modifier; the others edit something else
  cases o with
  | set m => rfl
  | select item => exact modifiers_project q item
  | edit change => rfl
  | declare prefixes => rfl
  | distinguish distinct => rfl
  | aggregate groups =>
    rw [Operation.apply]
    split
    · rename_i hExtended
      exact modifiers_withAggregates hExtended
    · rfl
  | inject calls => exact modifiers_run calls q

-- ---------------------------------------------------------------------------
-- Many operations
-- ---------------------------------------------------------------------------

/-- The modifiers after some operations are those that were set, on top of those before. -/
theorem modifiers_after (q : SelectQuery) (operations : List Operation) :
    (q.after operations).modifiers =
      Modifier.setAll q.modifiers (operations.filterMap Operation.set?) := by
  -- induction on the operations, one step at a time
  induction operations generalizing q with
  | nil => rfl
  | cons o operations ih =>
    have hStep := Operation.modifiers_apply q o
    change ((o.apply q).after operations).modifiers = _
    rw [ih, hStep]
    cases hSet : o.set? with
    | none =>
      rw [List.filterMap_cons_none hSet]
      rfl
    | some m =>
      rw [List.filterMap_cons_some hSet]
      rfl

/-- The modifiers of a kind after some operations. -/
theorem filter_modifiers_after (q : SelectQuery) (operations : List Operation)
    (kind : ModifierKind) :
    (q.after operations).modifiers.filter (·.kind == kind) =
      match lastSet? operations kind with
      | some m => [m]
      | none => q.modifiers.filter (·.kind == kind) := by
  rw [modifiers_after, filter_setAll]
  rfl

/-- Nothing is set of a kind of which nothing is set last. -/
theorem lastSet?_isNone {operations : List Operation} {m : Modifier}
    (hSet : m ∈ operations.filterMap Operation.set?) :
    (lastSet? operations m.kind).isNone = false := by
  have hMem : m ∈ (operations.filterMap Operation.set?).filter (·.kind == m.kind) :=
    List.mem_filter.mpr ⟨hSet, beq_self_eq_true _⟩
  rw [Option.isNone_eq_false_iff, lastSet?, Modifier.last?, List.getLast?_isSome]
  exact List.ne_nil_of_mem hMem

/-- Whatever is done to a query, of each kind that is set only the modifier set last is left, and
the modifiers of other kinds keep their order. They are written at the end, as a stable sort by kind
puts them, each with the keyword of its kind; so two runs that start from the same modifiers and set
the same ones last write the same. -/
theorem modifiers_of_operations (q : SelectQuery) (operations : List Operation) :
    (∀ kind m, lastSet? operations kind = some m →
      (q.after operations).modifiers.filter (·.kind == kind) = [m] ∧
        (q.after operations).modifier? kind = some m) ∧
    (q.after operations).modifiers.filter (fun m => (lastSet? operations m.kind).isNone) =
      q.modifiers.filter (fun m => (lastSet? operations m.kind).isNone) ∧
    (∀ depth, ∃ front, (q.after operations).lines depth = front ++
      ((q.after operations).modifiers.mergeSort mayPrecede).map fun m =>
        indented depth m.text) ∧
    ((q.after operations).modifiers.mergeSort mayPrecede).Pairwise
      (fun m n => m.kind.rank ≤ n.kind.rank) ∧
    (∀ m : Modifier, ∃ rest, m.text = m.kind.keyword ++ rest) ∧
    ∀ (q' : SelectQuery) (operations' : List Operation), q'.modifiers = q.modifiers →
      (∀ kind, lastSet? operations' kind = lastSet? operations kind) →
      (q'.after operations').modifiers.mergeSort mayPrecede =
        (q.after operations).modifiers.mergeSort mayPrecede := by
  refine ⟨?_, ?_, ?_, ?_, Modifier.text_eq_keyword_append, ?_⟩
  · intro kind m hLast
    have hOnly := filter_modifiers_after q operations kind
    rw [hLast] at hOnly
    refine ⟨hOnly, ?_⟩
    rw [modifier?, ← List.head?_filter, hOnly]
    rfl
  · rw [modifiers_after]
    -- the filter leaves out every kind that was set, so no step changes what it sees
    exact filter_setAll_others (fun kind => (lastSet? operations kind).isNone)
      fun m hSet => lastSet?_isNone hSet
  · intro depth
    rw [← sorted_eq_mergeSort]
    cases q.after operations
    exact ⟨_, rfl⟩
  · rw [← sorted_eq_mergeSort]
    exact (pairwise_sorted _).imp fun hOrder => of_decide_eq_true hOrder
  · intro q' operations' hStart hLast
    rw [← sorted_eq_mergeSort, ← sorted_eq_mergeSort]
    -- the sorted list is determined by what is left of each kind, in its order
    refine sorted_congr fun kind => ?_
    rw [filter_modifiers_after, filter_modifiers_after, hLast, hStart]

/-- A query with two limits and a grouping. -/
def pagedQuery : SelectQuery :=
  { empty with modifiers := [.limit (.int 1), .groupBy ["?a"], .limit (.int 2)] }

/-- Of the limits the last one is left, and it does not matter that it is set after the order. -/
theorem modifiers_of_operations_paged :
    let long := pagedQuery.after [.set (.limit (.int 3)), .select "?x",
      .set (.orderBy [("?x", .descending)]), .set (.limit (.int 4))]
    let short := pagedQuery.after [.set (.limit (.int 4)),
      .set (.orderBy [("?x", .descending)])]
    long.modifiers.filter (·.kind == .limit) = [.limit (.int 4)] ∧
      long.modifier? .limit = some (.limit (.int 4)) ∧
      short.modifiers.mergeSort mayPrecede = long.modifiers.mergeSort mayPrecede := by
  obtain ⟨hLast, -, -, -, -, hAlike⟩ := modifiers_of_operations pagedQuery
    [.set (.limit (.int 3)), .select "?x", .set (.orderBy [("?x", .descending)]),
      .set (.limit (.int 4))]
  obtain ⟨hOnly, hFirst⟩ := hLast .limit (.limit (.int 4)) rfl
  refine ⟨hOnly, hFirst, hAlike pagedQuery _ rfl fun kind => ?_⟩
  cases kind with
  | groupBy => rfl
  | orderBy => rfl
  | limit => rfl

end SelectQuery

end SparqlSelect
