import SparqlSelect.Query.Groups

/-!
# Induction over queries

Groups, elements and branches hold one another, with lists in between. An induction over them is
packaged once, with hypotheses about the members of a list in place of the list.

Two kinds of facts about trees are built on it.

* `Group.Everywhere` — a property of all elements at whatever depth. A group has it if its elements
  have it throughout (`everywhere_mk`).
* `Congruence.update` — a group in which the group of a key is replaced is related to the group
  before, if the relation holds of the replaced group and passes from a part to the whole.
-/

namespace SparqlSelect

/-- The steps of an induction over groups, elements and branches. -/
structure TreeInduction (PG : Group → Prop) (PE : Element → Prop) (PB : Branch → Prop) : Prop where
  members : ∀ origin elements, (∀ e ∈ elements, PE e) → PG ⟨origin, elements⟩
  triple : ∀ t, PE (.triple t)
  filter : ∀ e, PE (.filter e)
  bind : ∀ b, PE (.bind b)
  optional : ∀ g, PG g → PE (.optional g)
  union : ∀ branches, (∀ b ∈ branches, PB b) → PE (.union branches)
  nested : ∀ b, PB b → PE (.nested b)
  group : ∀ g, PG g → PB (.group g)
  select : ∀ q, PG q.body → PB (.select q)

section Induction

variable {PG : Group → Prop} {PE : Element → Prop} {PB : Branch → Prop}

mutual

/-- The principle for groups: the tree is a mutual and nested inductive type, so the five statements
are proved together. -/
theorem TreeInduction.onGroup (h : TreeInduction PG PE PB) : ∀ g, PG g
  | .mk origin elements => h.members origin elements (TreeInduction.onElements h elements)

theorem TreeInduction.onElements (h : TreeInduction PG PE PB) :
    ∀ elements : List Element, ∀ e ∈ elements, PE e
  | [] => fun _ he => absurd he List.not_mem_nil
  | e :: rest =>
    List.forall_mem_cons.mpr ⟨TreeInduction.onElement h e, TreeInduction.onElements h rest⟩

theorem TreeInduction.onElement (h : TreeInduction PG PE PB) : ∀ e, PE e
  | .triple t => h.triple t
  | .filter e => h.filter e
  | .bind b => h.bind b
  | .optional g => h.optional g (TreeInduction.onGroup h g)
  | .union branches => h.union branches (TreeInduction.onBranches h branches)
  | .nested b => h.nested b (TreeInduction.onBranch h b)

theorem TreeInduction.onBranches (h : TreeInduction PG PE PB) :
    ∀ branches : List Branch, ∀ b ∈ branches, PB b
  | [] => fun _ hb => absurd hb List.not_mem_nil
  | b :: rest =>
    List.forall_mem_cons.mpr ⟨TreeInduction.onBranch h b, TreeInduction.onBranches h rest⟩

theorem TreeInduction.onBranch (h : TreeInduction PG PE PB) : ∀ b, PB b
  | .group g => h.group g (TreeInduction.onGroup h g)
  | .select (.mk prefixes projection body modifiers distinct) =>
    h.select ⟨prefixes, projection, body, modifiers, distinct⟩ (TreeInduction.onGroup h body)

end

end Induction

-- ---------------------------------------------------------------------------
-- Groups inside
-- ---------------------------------------------------------------------------

/-- A group of several elements is a group of one of them. -/
theorem Element.mem_groupsOfAll {h : Group} {elements : List Element} :
    h ∈ Element.groupsOfAll elements ↔ ∃ e ∈ elements, h ∈ e.groups := by
  induction elements with
  | nil => simp [Element.groupsOfAll]
  | cons e rest ih => simp [Element.groupsOfAll, ih]

/-- A group of several branches is a group of one of them. -/
theorem Branch.mem_groupsOfAll {h : Group} {branches : List Branch} :
    h ∈ Branch.groupsOfAll branches ↔ ∃ b ∈ branches, h ∈ b.groups := by
  induction branches with
  | nil => simp [Branch.groupsOfAll]
  | cons b rest ih => simp [Branch.groupsOfAll, ih]

/-- The groups of a group are itself and those inside its elements. -/
theorem Group.mem_all {g h : Group} : h ∈ g.all ↔ h = g ∨ ∃ e ∈ g.elements, h ∈ e.groups := by
  obtain ⟨origin, elements⟩ := g
  simp [Group.all, Element.mem_groupsOfAll]

theorem SelectQuery.groups_eq (q : SelectQuery) : q.groups = q.body.all := by
  obtain ⟨prefixes, projection, body, modifiers, distinct⟩ := q
  rfl

-- ---------------------------------------------------------------------------
-- Properties of all elements
-- ---------------------------------------------------------------------------

/-- Every element of a group and of the groups inside it has a property. -/
def Group.Everywhere (P : Element → Prop) (g : Group) : Prop := ∀ h ∈ g.all, ∀ e ∈ h.elements, P e

/-- An element and every element inside it has a property. -/
def Element.Everywhere (P : Element → Prop) (e : Element) : Prop :=
  P e ∧ ∀ h ∈ e.groups, ∀ f ∈ h.elements, P f

/-- Every element of a branch has a property. -/
def Branch.Everywhere (P : Element → Prop) (b : Branch) : Prop :=
  ∀ h ∈ b.groups, ∀ e ∈ h.elements, P e

section Everywhere

variable {P Q : Element → Prop}

/-- What holds at every element below a group holds at every element below each of its members. -/
theorem Group.everywhere_iff {g : Group} :
    g.Everywhere P ↔ ∀ e ∈ g.elements, e.Everywhere P := by
  constructor
  · intro h e he
    exact ⟨h g (Group.mem_all.mpr (.inl rfl)) e he,
      fun k hk => h k (Group.mem_all.mpr (.inr ⟨e, he, hk⟩))⟩
  · intro h k hk e he
    rcases Group.mem_all.mp hk with rfl | ⟨f, hf, hkf⟩
    · exact (h e he).1
    · exact (h f hf).2 k hkf e he

@[simp] theorem Group.everywhere_mk {origin : Option String} {elements : List Element} :
    (Group.mk origin elements).Everywhere P ↔ ∀ e ∈ elements, e.Everywhere P :=
  Group.everywhere_iff

@[simp] theorem Element.everywhere_triple {t : Triple} :
    (Element.triple t).Everywhere P ↔ P (.triple t) := by
  simp [Element.Everywhere, Element.groups]

@[simp] theorem Element.everywhere_filter {e : String} :
    (Element.filter e).Everywhere P ↔ P (.filter e) := by
  simp [Element.Everywhere, Element.groups]

@[simp] theorem Element.everywhere_bind {b : Binding} :
    (Element.bind b).Everywhere P ↔ P (.bind b) := by
  simp [Element.Everywhere, Element.groups]

@[simp] theorem Element.everywhere_optional {g : Group} :
    (Element.optional g).Everywhere P ↔ P (.optional g) ∧ g.Everywhere P := Iff.rfl

@[simp] theorem Element.everywhere_nested {b : Branch} :
    (Element.nested b).Everywhere P ↔ P (.nested b) ∧ b.Everywhere P := Iff.rfl

@[simp] theorem Element.everywhere_union {branches : List Branch} :
    (Element.union branches).Everywhere P ↔
      P (.union branches) ∧ ∀ b ∈ branches, b.Everywhere P := by
  refine and_congr_right fun _ => ⟨fun h b hb k hk => ?_, fun h k hk => ?_⟩
  · exact h k (Branch.mem_groupsOfAll.mpr ⟨b, hb, hk⟩)
  · obtain ⟨b, hb, hkb⟩ := Branch.mem_groupsOfAll.mp hk
    exact h b hb k hkb

@[simp] theorem Branch.everywhere_group {g : Group} :
    (Branch.group g).Everywhere P ↔ g.Everywhere P := Iff.rfl

@[simp] theorem Branch.everywhere_select {q : SelectQuery} :
    (Branch.select q).Everywhere P ↔ q.body.Everywhere P := by
  unfold Branch.Everywhere Group.Everywhere
  rw [Branch.groups, SelectQuery.groups_eq]

/-- Adding an element asks for the property of that element alone. -/
theorem Group.everywhere_add {g : Group} {e : Element} :
    (g.add e).Everywhere P ↔ g.Everywhere P ∧ e.Everywhere P := by
  simp only [Group.everywhere_iff, Group.elements_add, List.mem_append, List.mem_singleton]
  exact ⟨fun h => ⟨fun f hf => h f (.inl hf), h e (.inr rfl)⟩,
    fun h f hf => hf.elim (h.1 f) fun heq => heq ▸ h.2⟩

/-- Where an element is put does not matter to a property of all elements. -/
theorem Group.everywhere_insertAfter {g : Group} {position : Nat} {e : Element} :
    (g.insertAfter position e).Everywhere P ↔ g.Everywhere P ∧ e.Everywhere P := by
  simp only [Group.everywhere_iff, Group.mem_elements_insertAfter]
  exact ⟨fun h => ⟨fun f hf => h f (.inr hf), h e (.inl rfl)⟩,
    fun h f hf => hf.elim (fun heq => heq ▸ h.2) (h.1 f)⟩

theorem Group.everywhere_empty {origin : Option String} : (Group.empty origin).Everywhere P := by
  simp [Group.everywhere_iff]

/-- A weaker property holds wherever a stronger one does. -/
theorem Group.Everywhere.mono {g : Group} (h : g.Everywhere P) (hPQ : ∀ e, P e → Q e) :
    g.Everywhere Q := fun k hk e he => hPQ e (h k hk e he)

end Everywhere

-- ---------------------------------------------------------------------------
-- Replacing the group of a key
-- ---------------------------------------------------------------------------

/-- Relations between groups, elements and branches that pass to a whole from the one part in which
two wholes differ. -/
structure Congruence (RG : Group → Group → Prop) (RE : Element → Element → Prop)
    (RB : Branch → Branch → Prop) : Prop where
  members : ∀ origin before after e f, RE e f →
    RG ⟨origin, before ++ e :: after⟩ ⟨origin, before ++ f :: after⟩
  optional : ∀ g h, RG g h → RE (.optional g) (.optional h)
  union : ∀ before after b c, RB b c →
    RE (.union (before ++ b :: after)) (.union (before ++ c :: after))
  nested : ∀ b c, RB b c → RE (.nested b) (.nested c)
  group : ∀ g h, RG g h → RB (.group g) (.group h)
  select : ∀ (q : SelectQuery) h, RG q.body h → RB (.select q) (.select { q with body := h })

section Update

variable {origin : Option String} {f : Group → Group}

/-- The elements in which a group was replaced differ in one element. -/
theorem Element.updateAll?_eq_some {elements elements' : List Element}
    (h : Element.updateAll? origin f elements = some elements') :
    ∃ before after e e', elements = before ++ e :: after ∧ elements' = before ++ e' :: after ∧
      e.update? origin f = some e' := by
  induction elements generalizing elements' with
  | nil => simp [Element.updateAll?] at h
  | cons e rest ih =>
    rw [Element.updateAll?] at h
    split at h
    · rename_i e' he
      cases h
      exact ⟨[], rest, e, e', rfl, rfl, he⟩
    · obtain ⟨rest', hRest, rfl⟩ := Option.map_eq_some_iff.mp h
      obtain ⟨before, after, d, d', rfl, rfl, hd⟩ := ih hRest
      exact ⟨e :: before, after, d, d', rfl, rfl, hd⟩

/-- The branches in which a group was replaced differ in one branch. -/
theorem Branch.updateAll?_eq_some {branches branches' : List Branch}
    (h : Branch.updateAll? origin f branches = some branches') :
    ∃ before after b b', branches = before ++ b :: after ∧ branches' = before ++ b' :: after ∧
      b.update? origin f = some b' := by
  induction branches generalizing branches' with
  | nil => simp [Branch.updateAll?] at h
  | cons b rest ih =>
    rw [Branch.updateAll?] at h
    split at h
    · rename_i b' hb
      cases h
      exact ⟨[], rest, b, b', rfl, rfl, hb⟩
    · obtain ⟨rest', hRest, rfl⟩ := Option.map_eq_some_iff.mp h
      obtain ⟨before, after, d, d', rfl, rfl, hd⟩ := ih hRest
      exact ⟨b :: before, after, d, d', rfl, rfl, hd⟩

theorem SelectQuery.update?_eq (q : SelectQuery) :
    q.update? origin f = (q.body.update? origin f).map fun body => { q with body } := by
  obtain ⟨prefixes, projection, body, modifiers, distinct⟩ := q
  rfl

variable {RG : Group → Group → Prop} {RE : Element → Element → Prop} {RB : Branch → Branch → Prop}

/-- A group is related to what it becomes when the group of a key in it is replaced. -/
theorem Congruence.update? (hC : Congruence RG RE RB) (hf : ∀ g, RG g (f g)) :
    ∀ g g', Group.update? origin f g = some g' → RG g g' := by
  suffices h : TreeInduction (fun g => ∀ g', g.update? origin f = some g' → RG g g')
      (fun e => ∀ e', e.update? origin f = some e' → RE e e')
      (fun b => ∀ b', b.update? origin f = some b' → RB b b') from h.onGroup
  constructor
  case members =>
    intro o elements ih g' h
    rw [Group.update?] at h
    -- the group itself is replaced, or the first element in which the update succeeds
    split at h
    · cases h
      exact hf _
    · obtain ⟨elements', hAll, rfl⟩ := Option.map_eq_some_iff.mp h
      obtain ⟨before, after, e, e', rfl, rfl, he⟩ := Element.updateAll?_eq_some hAll
      exact hC.members o before after e e' (ih e (by simp) e' he)
  case triple => intro t e' h; simp [Element.update?] at h
  case filter => intro e e' h; simp [Element.update?] at h
  case bind => intro b e' h; simp [Element.update?] at h
  case optional =>
    intro g ih e' h
    obtain ⟨g', hg, rfl⟩ := Option.map_eq_some_iff.mp h
    exact hC.optional g g' (ih g' hg)
  case union =>
    intro branches ih e' h
    obtain ⟨branches', hAll, rfl⟩ := Option.map_eq_some_iff.mp h
    obtain ⟨before, after, b, b', rfl, rfl, hb⟩ := Branch.updateAll?_eq_some hAll
    exact hC.union before after b b' (ih b (by simp) b' hb)
  case nested =>
    intro b ih e' h
    obtain ⟨b', hb, rfl⟩ := Option.map_eq_some_iff.mp h
    exact hC.nested b b' (ih b' hb)
  case group =>
    intro g ih b' h
    obtain ⟨g', hg, rfl⟩ := Option.map_eq_some_iff.mp h
    exact hC.group g g' (ih g' hg)
  case select =>
    intro q ih b' h
    obtain ⟨q', hq, rfl⟩ := Option.map_eq_some_iff.mp h
    rw [SelectQuery.update?_eq] at hq
    obtain ⟨body', hBody, rfl⟩ := Option.map_eq_some_iff.mp hq
    exact hC.select q body' (ih body' hBody)

/-- A group is related to what it becomes when the group of a key in it is replaced, if there is
one. -/
theorem Congruence.update (hC : Congruence RG RE RB) (hRefl : ∀ g, RG g g) (hf : ∀ g, RG g (f g))
    (g : Group) : RG g (g.updateOrigin origin f) := by
  unfold Group.updateOrigin
  cases h : g.update? origin f with
  | none => exact hRefl g
  | some g' => exact hC.update? hf g g' h

/-- A property of all elements passes from a part to the whole. -/
theorem congruence_everywhere (P : Element → Prop)
    (hOptional : ∀ g, P (.optional g)) (hUnion : ∀ branches, P (.union branches))
    (hNested : ∀ b, P (.nested b)) :
    Congruence (fun g h => g.Everywhere P → h.Everywhere P)
      (fun e f => e.Everywhere P → f.Everywhere P)
      (fun b c => b.Everywhere P → c.Everywhere P) where
  members origin before after e f hef := by
    -- the members beside the changed one are the same
    simp only [Group.everywhere_mk, List.mem_append, List.mem_cons]
    rintro h x (hx | rfl | hx)
    · exact h x (.inl hx)
    · exact hef (h e (.inr (.inl rfl)))
    · exact h x (.inr (.inr hx))
  optional g h hgh := by
    simpa [hOptional] using hgh
  union before after b c hbc := by
    simp only [Element.everywhere_union, List.mem_append, List.mem_cons]
    rintro ⟨-, h⟩
    refine ⟨hUnion _, ?_⟩
    rintro x (hx | rfl | hx)
    · exact h x (.inl hx)
    · exact hbc (h b (.inr (.inl rfl)))
    · exact h x (.inr (.inr hx))
  nested b c hbc := by
    simpa [hNested] using hbc
  group g h hgh := hgh
  select q h hgh := by
    simpa using hgh

end Update

end SparqlSelect
