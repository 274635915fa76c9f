import SparqlSelect.Proofs.Query.Subqueries
import SparqlSelect.Query.Text

/-!
# Queries that can be written

A query can be written if every limit in it is a number and every prefix has a text for a name. The
limits are those of the query itself and of the queries inside its pattern, at whatever depth.

* `SelectQuery.fault?_eq_none` — no limit keeps a query from being written.
* `SelectQuery.exists_text` — the text of a query.
-/

namespace SparqlSelect

/-- Every modifier of a query can be written. -/
def SelectQuery.IsWritable (q : SelectQuery) : Prop := ∀ m ∈ q.modifiers, m.fault? = none

theorem Element.faultOfAll?_eq_none {elements : List Element}
    (h : ∀ e ∈ elements, e.fault? = none) : Element.faultOfAll? elements = none := by
  induction elements with
  | nil => rfl
  | cons e rest ih =>
    obtain ⟨hFirst, hRest⟩ := List.forall_mem_cons.mp h
    rw [Element.faultOfAll?, hFirst, ih hRest]
    rfl

theorem Branch.faultOfAll?_eq_none {branches : List Branch}
    (h : ∀ b ∈ branches, b.fault? = none) : Branch.faultOfAll? branches = none := by
  induction branches with
  | nil => rfl
  | cons b rest ih =>
    obtain ⟨hFirst, hRest⟩ := List.forall_mem_cons.mp h
    rw [Branch.faultOfAll?, hFirst, ih hRest]
    rfl

theorem findSome?_fault_eq_none {modifiers : List Modifier}
    (h : ∀ m ∈ modifiers, m.fault? = none) :
    (Modifier.sorted modifiers).findSome? Modifier.fault? = none := by
  rw [List.findSome?_eq_none_iff]
  exact fun m hm => h m (Modifier.mem_of_mem_sorted hm)

/-- A pattern can be written if the queries inside it can. -/
theorem writableInduction : TreeInduction
    (fun g => g.Everywhere (Element.QueriesAre SelectQuery.IsWritable) → g.fault? = none)
    (fun e => e.Everywhere (Element.QueriesAre SelectQuery.IsWritable) → e.fault? = none)
    (fun b => b.Everywhere (Element.QueriesAre SelectQuery.IsWritable) →
      b.QueryIs SelectQuery.IsWritable → b.fault? = none) where
  -- one case for each constructor: what cannot be written could only stand in a query's modifiers
  members origin elements ih := by
    intro h
    rw [Group.everywhere_mk] at h
    rw [Group.fault?]
    exact Element.faultOfAll?_eq_none fun e he => ih e he (h e he)
  triple _ _ := rfl
  filter _ _ := rfl
  bind _ _ := rfl
  optional g ih := by
    intro h
    rw [Element.everywhere_optional] at h
    exact ih h.2
  union branches ih := by
    intro h
    rw [Element.everywhere_union, Element.queriesAre_union] at h
    rw [Element.fault?]
    exact Branch.faultOfAll?_eq_none fun b hb => ih b hb (h.2 b hb) (h.1 b hb)
  nested b ih := by
    intro h
    rw [Element.everywhere_nested, Element.queriesAre_nested] at h
    exact ih h.2 h.1
  group g ih := by
    intro h _
    exact ih (Branch.everywhere_group.mp h)
  select q ih := by
    intro h hq
    obtain ⟨prefixes, projection, body, modifiers, distinct⟩ := q
    rw [Branch.queryIs_select] at hq
    have hBody := ih (Branch.everywhere_select.mp h)
    dsimp only at hBody
    rw [Branch.fault?, SelectQuery.fault?, hBody, findSome?_fault_eq_none hq]
    rfl

/-- A query can be written if its own modifiers can and the queries inside its pattern can. -/
theorem SelectQuery.fault?_eq_none {q : SelectQuery} (hOwn : q.IsWritable)
    (hInside : q.body.Everywhere (Element.QueriesAre SelectQuery.IsWritable)) :
    q.fault? = none := by
  have hBranch : (Branch.select q).fault? = none :=
    writableInduction.onBranch (.select q) (Branch.everywhere_select.mpr hInside)
      (Branch.queryIs_select.mpr hOwn)
  exact hBranch

/-- The prefixes that a text uses are found if all names are texts. -/
theorem exists_usedPrefixes (body : String) {prefixes : List (Json × Json)}
    (h : ∀ entry ∈ prefixes, ∃ name, entry.1 = .str name) :
    ∃ used, usedPrefixes body prefixes = .ok used := by
  induction prefixes with
  | nil => exact ⟨[], rfl⟩
  | cons entry rest ih =>
    obtain ⟨hFirst, hRest⟩ := List.forall_mem_cons.mp h
    obtain ⟨name, iri⟩ := entry
    obtain ⟨text, rfl⟩ := hFirst
    obtain ⟨others, hOthers⟩ := ih hRest
    exact ⟨_, by rw [usedPrefixes, hOthers]; rfl⟩

/-- **The text of a query.** A query without a fault has one if the names of its prefixes are
texts. -/
theorem SelectQuery.exists_text {q : SelectQuery} (hFault : q.fault? = none)
    (hPrefixes : ∀ entry ∈ q.prefixes, ∃ name, entry.1 = .str name) :
    ∃ text, q.text = .ok text := by
  obtain ⟨used, hUsed⟩ := exists_usedPrefixes q.bodyText hPrefixes
  exact ⟨_, by rw [SelectQuery.text, hFault]; dsimp only; rw [hUsed]; rfl⟩

end SparqlSelect
