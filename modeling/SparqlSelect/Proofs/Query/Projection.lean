import Mathlib.Data.List.Induction
import Mathlib.Data.List.Nodup
import SparqlSelect.Query.Basic

/-!
# Selecting items one after another

An item is appended to what a query selects unless it is there. So a query that is asked for some
items one after another selects each of them once, in the order of their first places: it selects
`items.eraseDups`, where `items` are all that it was asked for.

* `eraseDups_concat`, `nodup_eraseDups` — distinct members in the order of their first places.
* `SelectQuery.projection_foldl_project` — the items of a query.
-/

namespace SparqlSelect

section

variable {α : Type} [BEq α] [LawfulBEq α] {xs ys : List α} {x : α}

/-- A further member is appended if it is new. -/
theorem eraseDups_concat (xs : List α) (x : α) :
    (xs ++ [x]).eraseDups = if xs.contains x then xs.eraseDups else xs.eraseDups ++ [x] := by
  rw [List.eraseDups_append]
  by_cases h : x ∈ xs <;> simp [List.removeAll, List.eraseDups_cons, h]

theorem eraseDups_concat_of_mem (h : x ∈ xs) : (xs ++ [x]).eraseDups = xs.eraseDups := by
  rw [eraseDups_concat, if_pos (List.contains_iff_mem.mpr h)]

/-- What comes after two lists with the same distinct members adds the same to both. -/
theorem eraseDups_append_congr (h : xs.eraseDups = ys.eraseDups) (zs : List α) :
    (xs ++ zs).eraseDups = (ys ++ zs).eraseDups := by
  have hMem (z : α) : xs.contains z = ys.contains z := by
    rw [Bool.eq_iff_iff, List.contains_iff_mem, List.contains_iff_mem, ← List.mem_eraseDups, h,
      List.mem_eraseDups]
  simp only [List.eraseDups_append, h, List.removeAll, List.elem_eq_contains, hMem]

theorem nodup_eraseDups (xs : List α) : xs.eraseDups.Nodup := by
  induction xs using List.reverseRecOn with
  | nil => simp
  | append_singleton xs x ih =>
    rw [eraseDups_concat]
    split
    · -- a repeated item is dropped, a new one is appended behind the kept ones
      exact ih
    · rename_i hNew
      rw [List.contains_iff_mem] at hNew
      refine List.nodup_append.mpr ⟨ih, List.nodup_singleton x, ?_⟩
      intro y hy z hz hSame
      rw [List.mem_singleton.mp hz] at hSame
      exact hNew (hSame ▸ List.mem_eraseDups.mp hy)

/-- A member is there once. -/
theorem count_eraseDups_of_mem (h : x ∈ xs) : xs.eraseDups.count x = 1 :=
  List.count_eq_one_of_mem (nodup_eraseDups xs) (List.mem_eraseDups.mpr h)

end

namespace SelectQuery

variable {q : SelectQuery} {items : List String}

/-- A query that selects some items, and is asked for one more. -/
theorem projection_project (h : q.projection = items.eraseDups) (item : String) :
    (q.project item).projection = (items ++ [item]).eraseDups := by
  have hThere : q.projection.contains item = items.contains item := by
    rw [h, Bool.eq_iff_iff, List.contains_iff_mem, List.contains_iff_mem, List.mem_eraseDups]
  rw [project, eraseDups_concat, hThere]
  split
  · exact h
  · exact congrArg (· ++ [item]) h

/-- A query that is asked for some items one after another. -/
theorem projection_foldl_project (h : q.projection = items.eraseDups) (more : List String) :
    (more.foldl project q).projection = (items ++ more).eraseDups := by
  induction more generalizing q items with
  | nil => rwa [List.append_nil]
  | cons item rest ih =>
    have hRest := ih (projection_project h item)
    rwa [List.append_assoc, List.singleton_append] at hRest

end SelectQuery

end SparqlSelect
