import SparqlSelect.Proofs.Query.ModifierOrder
import SparqlSelect.Proofs.Query.Prologue

/-!
# Patterns in normal form

Some of what a pattern holds is for those who work on it and is not written: the keys that groups
were built for, the prefixes of inner queries, unions without branches, whether a single branch
stands in a union, and the order in which modifiers of different kinds were set. A normal form has
none of it.

* `Group.normal` — the normal form of a group.
* `Group.bodyLines_normal` — a group and its normal form are written as the same lines.
-/

namespace SparqlSelect

-- ---------------------------------------------------------------------------
-- Normal forms
-- ---------------------------------------------------------------------------

/-- Joined branches as the elements they come to: none if there are no branches, and one branch
needs no `UNION`. -/
def Element.joining : List Branch → List Element
  | [] => []
  | [b] => [.nested b]
  | branches => [.union branches]

mutual

/-- The elements that an element comes to. -/
def Element.normal : Element → List Element
  | .triple t => [.triple t]
  | .filter e => [.filter e]
  | .bind b => [.bind b]
  | .optional body => [.optional body.normal]
  | .union branches => Element.joining (Branch.normalAll branches)
  | .nested branch => [.nested branch.normal]

/-- The elements that several elements come to. -/
def Element.normalAll : List Element → List Element
  | [] => []
  | e :: rest => e.normal ++ Element.normalAll rest

/-- A group without origins, and with the elements that its own come to. -/
def Group.normal : Group → Group
  | .mk _ elements => ⟨none, Element.normalAll elements⟩

/-- The normal forms of several branches. -/
def Branch.normalAll : List Branch → List Branch
  | [] => []
  | b :: rest => b.normal :: Branch.normalAll rest

/-- A branch with a group or a query in normal form. -/
def Branch.normal : Branch → Branch
  | .group body => .group body.normal
  | .select query => .select query.normal

/-- A query without prefixes, with its modifiers in the order in which they are written. -/
def SelectQuery.normal : SelectQuery → SelectQuery
  | .mk _ projection body modifiers distinct =>
    ⟨[], projection, body.normal, Modifier.sorted modifiers, distinct⟩

end

section

variable {depth : Int}

theorem Element.linesOfAll_append (elements others : List Element) :
    Element.linesOfAll depth (elements ++ others) =
      Element.linesOfAll depth elements ++ Element.linesOfAll depth others := by
  simp only [Element.linesOfAll_eq, List.flatMap_append]

/-- Joined branches are written as their branches with `UNION` between them. -/
theorem Element.linesOfAll_joining (branches : List Branch) :
    Element.linesOfAll depth (Element.joining branches) = Branch.unionLines depth branches := by
  match branches with
  | [] => rfl
  | [b] => simp [joining, linesOfAll, lines, Branch.unionLines, Branch.furtherLines]
  | b :: c :: rest => simp [joining, linesOfAll, lines]

theorem Branch.furtherLines_normalAll {branches : List Branch} (depth : Int)
    (h : ∀ b ∈ branches, b.normal.lines depth = b.lines depth) :
    Branch.furtherLines depth (Branch.normalAll branches) = Branch.furtherLines depth branches := by
  induction branches with
  | nil => rfl
  | cons b rest ih =>
    obtain ⟨hb, hRest⟩ := List.forall_mem_cons.mp h
    rw [normalAll, furtherLines, furtherLines, hb, ih hRest]

/-- Every part of a pattern is written as its normal form. -/
theorem treeInduction_lines_normal :
    TreeInduction (fun g => ∀ depth, g.normal.bodyLines depth = g.bodyLines depth)
      (fun e => ∀ depth, Element.linesOfAll depth e.normal = e.lines depth)
      (fun b => ∀ depth, b.normal.lines depth = b.lines depth) where
  members origin elements ih depth := by
    rw [Group.normal, Group.bodyLines, Group.bodyLines]
    induction elements with
    | nil => rfl
    | cons e rest ihRest =>
      obtain ⟨he, hRest⟩ := List.forall_mem_cons.mp ih
      rw [Element.normalAll, Element.linesOfAll_append, he, ihRest hRest, Element.linesOfAll]
  triple t depth := by simp [Element.normal, Element.linesOfAll]
  filter e depth := by simp [Element.normal, Element.linesOfAll]
  bind b depth := by simp [Element.normal, Element.linesOfAll]
  optional g ih depth := by simp [Element.normal, Element.linesOfAll, Element.lines, ih]
  union branches ih depth := by
    rw [Element.normal, Element.linesOfAll_joining, Element.lines]
    -- a union without branches has no lines, neither have its normal parts
    cases branches with
    | nil => rfl
    | cons b rest =>
      obtain ⟨hb, hRest⟩ := List.forall_mem_cons.mp ih
      rw [Branch.normalAll, Branch.unionLines, Branch.unionLines, hb,
        Branch.furtherLines_normalAll depth fun b hb => hRest b hb depth]
  nested b ih depth := by simp [Element.normal, Element.linesOfAll, Element.lines, ih]
  group g ih depth := by rw [Branch.normal, Branch.lines, Branch.lines, ih]
  -- the modifiers of a sub-select are sorted when its lines are written, so sorting first is no
  -- change
  select q ih depth := by
    obtain ⟨prefixes, projection, body, modifiers, distinct⟩ := q
    rw [Branch.normal, Branch.lines, Branch.lines, SelectQuery.normal, SelectQuery.lines,
      SelectQuery.lines, ih, Modifier.sorted_of_pairwise (Modifier.pairwise_sorted modifiers)]

/-- A group is written as its normal form. -/
theorem Group.bodyLines_normal :
    ∀ (g : Group) depth, g.normal.bodyLines depth = g.bodyLines depth :=
  treeInduction_lines_normal.onGroup

end

end SparqlSelect
