import SparqlSelect.Proofs.Query.Tree

/-!
# Patterns without their bindings

Bindings are put into a pattern after everything else stands. What the pattern was before is what is
left of it when all bindings are taken out, at whatever depth they stand.

* `Group.withoutBindings` — what is left of a group.
* `Group.withoutBindings_eq_self` — all of it, if there is no binding.
* `congruence_withoutBindings` — a group has the same left when a part of it has.
-/

namespace SparqlSelect

mutual

/-- A group without bindings. -/
def Group.withoutBindings : Group → Group
  | .mk origin elements => .mk origin (Element.allWithoutBindings elements)

/-- Elements without bindings. -/
def Element.allWithoutBindings : List Element → List Element
  | [] => []
  | e :: rest => e.withoutBindings ++ Element.allWithoutBindings rest

/-- What is left of an element: nothing of a binding, and else the element without the bindings
inside it. -/
def Element.withoutBindings : Element → List Element
  | .triple t => [.triple t]
  | .filter e => [.filter e]
  | .bind _ => []
  | .optional body => [.optional body.withoutBindings]
  | .union branches => [.union (Branch.allWithoutBindings branches)]
  | .nested branch => [.nested branch.withoutBindings]

/-- Branches without bindings. -/
def Branch.allWithoutBindings : List Branch → List Branch
  | [] => []
  | b :: rest => b.withoutBindings :: Branch.allWithoutBindings rest

/-- A branch without bindings. -/
def Branch.withoutBindings : Branch → Branch
  | .group body => .group body.withoutBindings
  | .select query => .select query.withoutBindings

/-- A query without bindings. -/
def SelectQuery.withoutBindings : SelectQuery → SelectQuery
  | .mk prefixes projection body modifiers distinct =>
    .mk prefixes projection body.withoutBindings modifiers distinct

end

/-- The mutual recursion over elements is the list's own `flatMap`. -/
theorem Element.allWithoutBindings_eq_flatMap (elements : List Element) :
    Element.allWithoutBindings elements = elements.flatMap Element.withoutBindings := by
  induction elements with
  | nil => rfl
  | cons e rest ih => rw [Element.allWithoutBindings, ih, List.flatMap_cons]

theorem Branch.allWithoutBindings_eq_map (branches : List Branch) :
    Branch.allWithoutBindings branches = branches.map Branch.withoutBindings := by
  induction branches with
  | nil => rfl
  | cons b rest ih => rw [Branch.allWithoutBindings, ih, List.map_cons]

theorem Group.withoutBindings_mk (origin : Option String) (elements : List Element) :
    Group.withoutBindings ⟨origin, elements⟩ =
      ⟨origin, elements.flatMap Element.withoutBindings⟩ := by
  rw [Group.withoutBindings, Element.allWithoutBindings_eq_flatMap]

/-- Taking the binds out of a query changes its body alone. -/
theorem SelectQuery.withoutBindings_eq (q : SelectQuery) :
    q.withoutBindings = { q with body := q.body.withoutBindings } := by
  obtain ⟨prefixes, projection, body, modifiers, distinct⟩ := q
  rfl

/-- Nothing is left of a binding that was put into a group. -/
theorem Group.withoutBindings_insertAfter (g : Group) (position : Nat) (b : Binding) :
    (g.insertAfter position (.bind b)).withoutBindings = g.withoutBindings := by
  obtain ⟨origin, elements⟩ := g
  have hParts := List.take_append_drop (position + 1) elements
  simp only [Group.insertAfter, Group.withoutBindings_mk, Group.mk.injEq, true_and]
  calc (elements.take (position + 1) ++ .bind b :: elements.drop (position + 1)).flatMap
        Element.withoutBindings
      = (elements.take (position + 1)).flatMap Element.withoutBindings ++
          (elements.drop (position + 1)).flatMap Element.withoutBindings := by
        rw [List.flatMap_append, List.flatMap_cons, Element.withoutBindings, List.nil_append]
    _ = elements.flatMap Element.withoutBindings := by rw [← List.flatMap_append, hParts]

/-- All of a group is left if there is no binding in it. -/
theorem Group.withoutBindings_eq_self {P : Element → Prop} (hP : ∀ b, ¬ P (.bind b)) :
    ∀ g : Group, g.Everywhere P → g.withoutBindings = g := by
  -- one case for each constructor: only a binding is taken out, and there is none
  suffices h : TreeInduction (fun g => g.Everywhere P → g.withoutBindings = g)
      (fun e => e.Everywhere P → e.withoutBindings = [e])
      (fun b => b.Everywhere P → b.withoutBindings = b) from h.onGroup
  constructor
  case members =>
    intro origin elements ih h
    rw [Group.everywhere_mk] at h
    have hEach : elements.map Element.withoutBindings = elements.map fun e => [e] :=
      List.map_congr_left fun e he => ih e he (h e he)
    rw [Group.withoutBindings_mk, List.flatMap_def, hEach, ← List.flatMap_def,
      List.flatMap_singleton']
  case triple => intro t _; rfl
  case filter => intro e _; rfl
  case bind =>
    intro b h
    exact absurd (Element.everywhere_bind.mp h) (hP b)
  case optional =>
    intro g ih h
    rw [Element.withoutBindings, ih (Element.everywhere_optional.mp h).2]
  case union =>
    intro branches ih h
    rw [Element.everywhere_union] at h
    rw [Element.withoutBindings, Branch.allWithoutBindings_eq_map,
      List.map_congr_left fun b hb => ih b hb (h.2 b hb), List.map_id']
  case nested =>
    intro b ih h
    rw [Element.withoutBindings, ih (Element.everywhere_nested.mp h).2]
  case group =>
    intro g ih h
    rw [Branch.withoutBindings, ih (Branch.everywhere_group.mp h)]
  case select =>
    rintro ⟨prefixes, projection, body, modifiers, distinct⟩ ih h
    rw [Branch.withoutBindings, SelectQuery.withoutBindings_eq,
      ih (Branch.everywhere_select.mp h)]

/-- A whole has the same left if the part has in which it was changed. -/
theorem congruence_withoutBindings :
    Congruence (fun g h => g.withoutBindings = h.withoutBindings)
      (fun e f => e.withoutBindings = f.withoutBindings)
      (fun b c => b.withoutBindings = c.withoutBindings) where
  members origin before after e f hef := by
    -- the members around the changed one are the same on both sides
    simp only [Group.withoutBindings_mk, List.flatMap_append, List.flatMap_cons, hef]
  optional g h hgh := by
    simp only [Element.withoutBindings, hgh]
  union before after b c hbc := by
    simp only [Element.withoutBindings, Branch.allWithoutBindings_eq_map, List.map_append,
      List.map_cons, hbc]
  nested b c hbc := by
    simp only [Element.withoutBindings, hbc]
  group g h hgh := by
    simp only [Branch.withoutBindings, hgh]
  select q h hqh := by
    simp only [Branch.withoutBindings, SelectQuery.withoutBindings_eq, hqh]

end SparqlSelect
