import Mathlib.Data.List.Induction
import SparqlSelect.Query.Text

/-!
# The order of modifiers

Setting a modifier moves its kind to the end of the list, so the list shows in which order the kinds
were set last. Written are the modifiers in the order of their kinds, and those of one kind, which
only a list made by hand can have, in their own order. The list of each kind by itself is thus all
that decides what is written.

* `Modifier.sorted_eq_mergeSort` — the written order is that of a stable sort by kind.
* `Modifier.sorted_congr` — lists with the same modifiers of each kind are written alike.
* `Modifier.setAll` — several modifiers set one after another: `filter_setAll`, that the last one of
  a kind is left, and `filter_setAll_others`, that other kinds are not touched.
-/

namespace SparqlSelect

/-- Where a kind of modifiers stands in the order in which they are written. -/
def ModifierKind.rank : ModifierKind → Nat
  | groupBy => 0
  | orderBy => 1
  | limit => 2

/-- What a modifier of a kind begins with. -/
def ModifierKind.keyword : ModifierKind → String
  | groupBy => "GROUP BY "
  | orderBy => "ORDER BY "
  | limit => "LIMIT "

namespace Modifier

/-- Every modifier is written with its kind's keyword first. -/
theorem text_eq_keyword_append (m : Modifier) : ∃ rest, m.text = m.kind.keyword ++ rest := by
  cases m with
  | groupBy terms => exact ⟨_, rfl⟩
  | orderBy keys => exact ⟨_, rfl⟩
  | limit count => exact ⟨_, rfl⟩

/-- Whether a modifier may be written before another. -/
def mayPrecede (m n : Modifier) : Bool := decide (m.kind.rank ≤ n.kind.rank)

-- ---------------------------------------------------------------------------
-- The written order
-- ---------------------------------------------------------------------------

section

variable {ms ns : List Modifier}

/-- Lists with the same modifiers of each kind are written alike. -/
theorem sorted_congr (h : ∀ kind, ms.filter (·.kind == kind) = ns.filter (·.kind == kind)) :
    sorted ms = sorted ns := by
  rw [sorted, sorted, h .groupBy, h .orderBy, h .limit]

theorem kind_of_mem_filter {kind : ModifierKind} {m : Modifier}
    (h : m ∈ ms.filter (·.kind == kind)) : m.kind = kind :=
  beq_iff_eq.mp (List.mem_filter.mp h).2

/-- Modifiers of one kind may stand in any order. -/
theorem pairwise_filter (ms : List Modifier) (kind : ModifierKind) :
    (ms.filter (·.kind == kind)).Pairwise (fun m n => m.mayPrecede n = true) := by
  refine List.pairwise_of_forall_mem_list fun m hm n hn => ?_
  rw [mayPrecede, kind_of_mem_filter hm, kind_of_mem_filter hn]
  exact decide_eq_true (Nat.le_refl _)

/-- The sorted list has no modifier before one that must precede it. -/
theorem pairwise_sorted (ms : List Modifier) :
    (sorted ms).Pairwise (fun m n => m.mayPrecede n = true) := by
  rw [sorted, List.pairwise_append, List.pairwise_append]
  refine ⟨⟨pairwise_filter _ _, pairwise_filter _ _, ?_⟩, pairwise_filter _ _, ?_⟩
  · -- grouping stands before everything else
    intro m hm n hn
    rw [mayPrecede, kind_of_mem_filter hm, kind_of_mem_filter hn]
    rfl
  · -- and the limits behind ordering
    intro m hm n hn
    rw [mayPrecede, kind_of_mem_filter hn]
    rcases List.mem_append.mp hm with hm | hm
    · rw [kind_of_mem_filter hm]
      rfl
    · rw [kind_of_mem_filter hm]
      rfl

/-- A list whose modifiers stand in the order of their kinds is written as it is. -/
theorem sorted_of_pairwise (h : ms.Pairwise (fun m n => m.mayPrecede n = true)) :
    sorted ms = ms := by
  induction ms with
  | nil => rfl
  | cons m ms ih =>
    obtain ⟨hFirst, hRest⟩ := List.pairwise_cons.mp h
    have hSame := ih hRest
    -- no kind before that of the first modifier is in the rest
    have hNone (kind : ModifierKind) (hBefore : kind.rank < m.kind.rank) :
        ms.filter (·.kind == kind) = [] := by
      rw [List.filter_eq_nil_iff]
      intro n hn hKind
      have hOrder := of_decide_eq_true (hFirst n hn)
      rw [beq_iff_eq.mp hKind] at hOrder
      omega
    unfold sorted at hSame ⊢
    cases hKind : m.kind with
    | groupBy => simp [hKind, hSame]
    | orderBy =>
      have hGroups := hNone .groupBy (by rw [hKind]; decide)
      simpa [hKind, hGroups] using hSame
    | limit =>
      have hGroups := hNone .groupBy (by rw [hKind]; decide)
      have hOrders := hNone .orderBy (by rw [hKind]; decide)
      simpa [hKind, hGroups, hOrders] using hSame

/-- Modifiers are written as a stable sort by their kinds puts them. -/
theorem sorted_eq_mergeSort (ms : List Modifier) : sorted ms = ms.mergeSort mayPrecede := by
  have hTrans (a b c : Modifier) (hab : a.mayPrecede b = true) (hbc : b.mayPrecede c = true) :
      a.mayPrecede c = true := by
    simp only [mayPrecede, decide_eq_true_eq] at *
    omega
  have hTotal (a b : Modifier) : (a.mayPrecede b || b.mayPrecede a) = true := by
    simp only [mayPrecede, Bool.or_eq_true, decide_eq_true_eq]
    omega
  -- a stable sort keeps the order inside each kind, and the lists for the kinds determine it
  have hStable (kind : ModifierKind) :
      ms.filter (·.kind == kind) = (ms.mergeSort mayPrecede).filter (·.kind == kind) := by
    have hSublist := List.sublist_mergeSort hTrans hTotal (pairwise_filter ms kind)
      List.filter_sublist
    have hLength := ((List.mergeSort_perm ms mayPrecede).filter (·.kind == kind)).length_eq
    have hFiltered := hSublist.filter (·.kind == kind)
    rw [List.filter_filter] at hFiltered
    simp only [Bool.and_self] at hFiltered
    exact hFiltered.eq_of_length hLength.symm
  rw [sorted_congr hStable]
  exact sorted_of_pairwise (List.pairwise_mergeSort hTrans hTotal ms)

end

-- ---------------------------------------------------------------------------
-- Modifiers that are set
-- ---------------------------------------------------------------------------

/-- Some modifiers with one in place of all others of its kind. -/
def setIn (ms : List Modifier) (m : Modifier) : List Modifier :=
  ms.filter (fun n => n.kind != m.kind) ++ [m]

/-- Some modifiers with others set one after another. -/
def setAll (ms added : List Modifier) : List Modifier := added.foldl setIn ms

/-- The last modifier of a kind. -/
def last? (ms : List Modifier) (kind : ModifierKind) : Option Modifier :=
  (ms.filter (·.kind == kind)).getLast?

variable {ms : List Modifier}

/-- Setting a modifier takes out the ones of its kind and puts it last, seen through any filter on
kinds. -/
theorem filter_setIn (P : ModifierKind → Bool) (m : Modifier) :
    (setIn ms m).filter (P ·.kind) =
      ms.filter (fun n => P n.kind && n.kind != m.kind) ++ if P m.kind then [m] else [] := by
  rw [setIn, List.filter_append, List.filter_filter]
  by_cases hm : P m.kind = true
  · simp [hm]
  · simp [hm]

/-- Of a kind that was set the last modifier is left alone, and of other kinds there is what there
was. -/
theorem filter_setAll (added : List Modifier) (kind : ModifierKind) :
    (setAll ms added).filter (·.kind == kind) =
      match last? added kind with
      | some m => [m]
      | none => ms.filter (·.kind == kind) := by
  induction added using List.reverseRecOn with
  | nil => rfl
  | append_singleton added m ih =>
    have hLater : setAll ms (added ++ [m]) = setIn (setAll ms added) m := by
      rw [setAll, List.foldl_append]
      rfl
    rw [hLater, filter_setIn (· == kind), last?, List.filter_append]
    by_cases hKind : m.kind = kind
    · -- the others of the kind are taken out
      have hOut : (setAll ms added).filter (fun n => n.kind == kind && n.kind != m.kind) = [] := by
        simp [List.filter_eq_nil_iff, hKind]
      rw [hOut]
      simp [hKind]
    · have hKept : (setAll ms added).filter (fun n => n.kind == kind && n.kind != m.kind) =
          (setAll ms added).filter (·.kind == kind) := by
        refine List.filter_congr fun n _ => ?_
        by_cases hn : n.kind = kind
        · simp [hn, Ne.symm hKind]
        · simp [hn]
      rw [hKept, ih, last?]
      simp [hKind]

/-- Modifiers of kinds that were not set stay in their order. -/
theorem filter_setAll_others {added : List Modifier} (P : ModifierKind → Bool)
    (h : ∀ m ∈ added, P m.kind = false) :
    (setAll ms added).filter (P ·.kind) = ms.filter (P ·.kind) := by
  induction added generalizing ms with
  | nil => rfl
  | cons m added ih =>
    obtain ⟨hm, hRest⟩ := List.forall_mem_cons.mp h
    rw [setAll, List.foldl_cons, ← setAll, ih hRest, filter_setIn, hm]
    rw [if_neg Bool.false_ne_true, List.append_nil]
    refine List.filter_congr fun n _ => ?_
    by_cases hn : n.kind = m.kind
    · simp [hn, hm]
    · simp [hn]

end Modifier

end SparqlSelect
