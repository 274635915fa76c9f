import SparqlSelect.Proofs.Query.Tree

/-!
# Queries inside a pattern

A query inside a pattern is a branch of a union, or stands in braces of its own. What is said of the
heads of these queries, of what they select and how they modify it, does not change when a group
inside one of them is replaced.

* `Group.subqueries` — every query inside a group, at whatever depth.
* `congruence_queries` — a property of the heads passes from a part to the whole.
-/

namespace SparqlSelect

/-- The query that a branch is, if it is one. -/
def Branch.query? : Branch → Option SelectQuery
  | .select q => some q
  | .group _ => none

/-- The queries that an element holds as its own branches. -/
def Element.ownQueries : Element → List SelectQuery
  | .union branches => branches.filterMap Branch.query?
  | .nested branch => branch.query?.toList
  | .triple _ | .filter _ | .bind _ | .optional _ => []

/-- Every query inside a group. -/
def Group.subqueries (g : Group) : List SelectQuery :=
  g.all.flatMap fun h => h.elements.flatMap Element.ownQueries

/-- A branch is no query, or one with a property. -/
def Branch.QueryIs (R : SelectQuery → Prop) (b : Branch) : Prop := ∀ q ∈ b.query?, R q

/-- The queries that an element holds as its own branches have a property. -/
def Element.QueriesAre (R : SelectQuery → Prop) (e : Element) : Prop := ∀ q ∈ e.ownQueries, R q

section

variable {R : SelectQuery → Prop}

/-- A statement about every sub-query is one about every element of the tree, which is how the
builders are proved. -/
theorem Group.forall_subqueries_iff {g : Group} :
    (∀ q ∈ g.subqueries, R q) ↔ g.Everywhere (Element.QueriesAre R) := by
  simp only [Group.subqueries, Group.Everywhere, Element.QueriesAre, List.mem_flatMap]
  constructor
  · exact fun h k hk e he q hq => h q ⟨k, hk, e, he, hq⟩
  · rintro h q ⟨k, hk, e, he, hq⟩
    exact h k hk e he q hq

@[simp] theorem Branch.queryIs_group {g : Group} : (Branch.group g).QueryIs R := by
  rintro q hq
  cases hq

@[simp] theorem Branch.queryIs_select {q : SelectQuery} : (Branch.select q).QueryIs R ↔ R q := by
  simp [QueryIs, query?]

@[simp] theorem Element.queriesAre_triple {t : Triple} : (Element.triple t).QueriesAre R := by
  simp [QueriesAre, ownQueries]

@[simp] theorem Element.queriesAre_filter {e : String} : (Element.filter e).QueriesAre R := by
  simp [QueriesAre, ownQueries]

@[simp] theorem Element.queriesAre_bind {b : Binding} : (Element.bind b).QueriesAre R := by
  simp [QueriesAre, ownQueries]

@[simp] theorem Element.queriesAre_optional {g : Group} : (Element.optional g).QueriesAre R := by
  simp [QueriesAre, ownQueries]

@[simp] theorem Element.queriesAre_union {branches : List Branch} :
    (Element.union branches).QueriesAre R ↔ ∀ b ∈ branches, b.QueryIs R := by
  simp only [QueriesAre, ownQueries, List.mem_filterMap, Branch.QueryIs, Option.mem_def]
  constructor
  · exact fun h b hb q hq => h q ⟨b, hb, hq⟩
  · rintro h q ⟨b, hb, hq⟩
    exact h b hb q hq

@[simp] theorem Element.queriesAre_nested {b : Branch} :
    (Element.nested b).QueriesAre R ↔ b.QueryIs R := by
  simp [QueriesAre, ownQueries, Branch.QueryIs]

/-- A property of the heads of queries passes from a part to the whole. -/
theorem congruence_queries (hR : ∀ q h, R q → R { q with body := h }) :
    Congruence
      (fun g h => g.Everywhere (Element.QueriesAre R) → h.Everywhere (Element.QueriesAre R))
      (fun e f => e.Everywhere (Element.QueriesAre R) → f.Everywhere (Element.QueriesAre R))
      (fun b c => (b.Everywhere (Element.QueriesAre R) → c.Everywhere (Element.QueriesAre R)) ∧
        (b.QueryIs R → c.QueryIs R)) where
  members origin before after e f hef := by
    simp only [Group.everywhere_mk, List.forall_mem_append, List.forall_mem_cons]
    rintro ⟨hBefore, he, hAfter⟩
    exact ⟨hBefore, hef he, hAfter⟩
  optional g h hgh := by
    simpa using hgh
  union before after b c hbc := by
    simp only [Element.everywhere_union, Element.queriesAre_union, List.forall_mem_append,
      List.forall_mem_cons]
    -- the heads and the bodies of the branches are told apart: a change leaves the other branches
    -- as they are
    rintro ⟨⟨hHeads, hHead, hOthers⟩, hBefore, hb, hAfter⟩
    exact ⟨⟨hHeads, hbc.2 hHead, hOthers⟩, hBefore, hbc.1 hb, hAfter⟩
  nested b c hbc := by
    simp only [Element.everywhere_nested, Element.queriesAre_nested]
    rintro ⟨hHead, hb⟩
    exact ⟨hbc.2 hHead, hbc.1 hb⟩
  group g h hgh := ⟨hgh, fun _ => Branch.queryIs_group⟩
  select q h hgh := by
    simp only [Branch.everywhere_select, Branch.queryIs_select]
    exact ⟨hgh, hR q h⟩

end

end SparqlSelect
