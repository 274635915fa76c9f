import Mathlib.Data.List.Basic
import SparqlSelect.Proofs.Query.Bindings
import SparqlSelect.Proofs.Query.Scope

/-!
# The first group of a key

A group is found by its key, and the group that is found is the first of that key. When it is
replaced by a group of the same key that holds the same groups, the search comes to the replacement
for this key and to the same group as before for every other. The groups around it change too, but
not in their keys or in the bindings among their own elements: these make the label of a group, and
of all labels only that of the replaced group is another one afterwards.

* `Group.ofOrigin?_withoutBindings` — the search does not depend on bindings.
* `update?_relabelled` — what replacing a group does to the labels of all groups.
* `Group.bindsOf?_updateOrigin_self`, `Group.bindsOf?_updateOrigin_of_ne` — the bindings of the
  group that is found.
-/

namespace SparqlSelect

-- ---------------------------------------------------------------------------
-- Without bindings
-- ---------------------------------------------------------------------------

/-- A group, and the groups in its elements. -/
theorem Group.all_eq_cons (g : Group) : g.all = g :: Element.groupsOfAll g.elements := by
  obtain ⟨origin, elements⟩ := g
  rfl

theorem Element.groupsOfAll_eq_flatMap (elements : List Element) :
    Element.groupsOfAll elements = elements.flatMap Element.groups := by
  induction elements with
  | nil => rfl
  | cons e rest ih => rw [Element.groupsOfAll, ih, List.flatMap_cons]

/-- All groups of a group: itself, then those of its elements in order. -/
theorem Group.all_eq (g : Group) : g.all = g :: g.elements.flatMap Element.groups := by
  rw [Group.all_eq_cons, Element.groupsOfAll_eq_flatMap]

theorem Branch.groupsOfAll_eq_flatMap (branches : List Branch) :
    Branch.groupsOfAll branches = branches.flatMap Branch.groups := by
  induction branches with
  | nil => rfl
  | cons b rest ih => rw [Branch.groupsOfAll, ih, List.flatMap_cons]

/-- The groups of what is left are what is left of the groups. -/
theorem treeInduction_groups_withoutBindings :
    TreeInduction (fun g => g.withoutBindings.all = g.all.map Group.withoutBindings)
      (fun e => e.withoutBindings.flatMap Element.groups = e.groups.map Group.withoutBindings)
      (fun b => b.withoutBindings.groups = b.groups.map Group.withoutBindings) where
  members origin elements ih := by
    -- only members of groups are taken out, so the groups stay in their order
    rw [Group.withoutBindings_mk, Group.all_eq, Group.all_eq, List.map_cons,
      Group.withoutBindings_mk, List.flatMap_assoc, List.map_flatMap, List.flatMap_congr ih]
  triple _ := rfl
  filter _ := rfl
  bind _ := rfl
  optional g ih := by
    rw [Element.withoutBindings, List.flatMap_singleton]
    exact ih
  union branches ih := by
    rw [Element.withoutBindings, List.flatMap_singleton, Element.groups, Element.groups,
      Branch.groupsOfAll_eq_flatMap, Branch.groupsOfAll_eq_flatMap,
      Branch.allWithoutBindings_eq_map, List.flatMap_map, List.map_flatMap, List.flatMap_congr ih]
  nested b ih := by
    rw [Element.withoutBindings, List.flatMap_singleton]
    exact ih
  group g ih := ih
  select q ih := by
    obtain ⟨prefixes, projection, body, modifiers, distinct⟩ := q
    exact ih

/-- Taking the binds out keeps the groups and their order. -/
theorem Group.all_withoutBindings (g : Group) :
    g.withoutBindings.all = g.all.map Group.withoutBindings :=
  treeInduction_groups_withoutBindings.onGroup g

@[simp] theorem Group.origin_withoutBindings (g : Group) :
    g.withoutBindings.origin = g.origin := by
  obtain ⟨origin, elements⟩ := g
  rfl

/-- The group of a key is found in what is left of a group as it is found in the group. -/
theorem Group.ofOrigin?_withoutBindings (g : Group) (origin : Option String) :
    g.withoutBindings.ofOrigin? origin = (g.ofOrigin? origin).map Group.withoutBindings := by
  rw [Group.ofOrigin?, Group.ofOrigin?, Group.all_withoutBindings, List.find?_map]
  refine congrArg (fun p => Option.map _ (List.find? p g.all)) (funext fun h => ?_)
  rw [Function.comp_apply, Group.origin_withoutBindings]

/-- The triples of what is left are those of the group. -/
theorem Group.triples_withoutBindings (g : Group) : g.withoutBindings.triples = g.triples := by
  obtain ⟨origin, elements⟩ := g
  rw [Group.withoutBindings_mk, Group.triples, Group.triples, List.filterMap_flatMap,
    List.filterMap_eq_flatMap_toList]
  exact List.flatMap_congr fun e _ => by cases e <;> rfl

/-- What is left of a group mentions no more variables. -/
theorem Group.variables_withoutBindings_subset (g : Group) :
    g.withoutBindings.variables ⊆ g.variables := by
  intro v hv
  simp only [Group.variables, Group.all_withoutBindings, List.mem_flatMap, List.mem_map,
    List.mem_append] at hv ⊢
  obtain ⟨_, ⟨h, hh, rfl⟩, hTriples | hBinds⟩ := hv
  · rw [Group.triples_withoutBindings] at hTriples
    exact ⟨h, hh, .inl hTriples⟩
  · -- there are no bindings left
    obtain ⟨b, hb, -⟩ := hBinds
    obtain ⟨origin, elements⟩ := h
    rw [Group.withoutBindings_mk, Group.binds, List.mem_filterMap] at hb
    obtain ⟨e, he, hb⟩ := hb
    obtain ⟨d, -, he⟩ := List.mem_flatMap.mp he
    cases d <;> simp_all [Element.withoutBindings]

-- ---------------------------------------------------------------------------
-- Labels
-- ---------------------------------------------------------------------------

/-- The key of a group and the bindings among its own elements. -/
def Group.label (g : Group) : Option String × List Binding := (g.origin, g.binds)

/-- Two lists of groups have the same labels but for the first group of a key in the one, which `f`
has replaced in the other. -/
def Relabelled (origin : Option String) (f : Group → Group) (gs gs' : List Group) : Prop :=
  ∃ before g after, gs.map Group.label = before ++ g.label :: after ∧
    gs'.map Group.label = before ++ (f g).label :: after ∧
    (∀ l ∈ before, l.1 ≠ origin) ∧ g.origin = origin

section

variable {origin o : Option String} {f : Group → Group} {gs gs' : List Group} {g g' : Group}

/-- Groups that follow play no part in a relabelling: the first group of the origin stands before
them. -/
theorem Relabelled.append_right (h : Relabelled origin f gs gs') (others : List Group) :
    Relabelled origin f (gs ++ others) (gs' ++ others) := by
  obtain ⟨before, g, after, hBefore, hAfter, hNone, hOrigin⟩ := h
  exact ⟨before, g, after ++ others.map Group.label, by simp [hBefore], by simp [hAfter], hNone,
    hOrigin⟩

/-- Groups before the changed one stay as they are, as none of them has the origin. -/
theorem Relabelled.append_left {others others' : List Group}
    (hSame : others.map Group.label = others'.map Group.label)
    (hOthers : ∀ g ∈ others, g.origin ≠ origin) (h : Relabelled origin f gs gs') :
    Relabelled origin f (others ++ gs) (others' ++ gs') := by
  obtain ⟨before, g, after, hBefore, hAfter, hNone, hOrigin⟩ := h
  refine ⟨others.map Group.label ++ before, g, after, by simp [hBefore], by simp [hSame, hAfter],
    List.forall_mem_append.mpr ⟨?_, hNone⟩, hOrigin⟩
  rw [List.forall_mem_map]
  exact hOthers

/-- An element in which a group is replaced is no binding and becomes none. -/
theorem Element.binds_of_update? {e e' : Element} (h : e.update? origin f = some e') :
    (Group.mk o [e]).binds = [] ∧ (Group.mk o [e']).binds = [] := by
  -- only the elements that hold groups can be changed, and they bind nothing themselves
  cases e with
  | triple t => cases h
  | filter e => cases h
  | bind b => cases h
  | optional g =>
    obtain ⟨_, -, rfl⟩ := Option.map_eq_some_iff.mp h
    exact ⟨rfl, rfl⟩
  | union branches =>
    obtain ⟨_, -, rfl⟩ := Option.map_eq_some_iff.mp h
    exact ⟨rfl, rfl⟩
  | nested b =>
    obtain ⟨_, -, rfl⟩ := Option.map_eq_some_iff.mp h
    exact ⟨rfl, rfl⟩

/-- A group keeps its label where a group inside one of its elements is replaced. -/
theorem label_of_updateAll? {elements elements' : List Element}
    (h : Element.updateAll? origin f elements = some elements') :
    (Group.mk o elements).label = (Group.mk o elements').label := by
  obtain ⟨before, after, e, e', rfl, rfl, he⟩ := Element.updateAll?_eq_some h
  obtain ⟨hBinds, hBinds'⟩ := Element.binds_of_update? (o := o) he
  simp only [Group.label, Group.binds, List.filterMap_append] at hBinds hBinds' ⊢
  rw [← List.singleton_append, ← List.singleton_append (l := after), List.filterMap_append,
    List.filterMap_append, hBinds, hBinds']

/-- A change in a list of elements relabels the first element that has the origin. -/
theorem updateAll?_relabelled {elements elements' : List Element}
    (hEach : ∀ e ∈ elements, ∀ e', e.update? origin f = some e' →
      Relabelled origin f e.groups e'.groups)
    (h : Element.updateAll? origin f elements = some elements') :
    Relabelled origin f (Element.groupsOfAll elements) (Element.groupsOfAll elements') := by
  induction elements generalizing elements' with
  | nil => cases h
  | cons e rest ih =>
    rw [Element.updateAll?] at h
    split at h
    · -- the first element that holds the group is changed, and no other
      rename_i e' he
      cases h
      exact (hEach e List.mem_cons_self e' he).append_right _
    · -- otherwise none of its groups has the origin, and they stay as they are
      rename_i hNone
      obtain ⟨rest', hRest, rfl⟩ := Option.map_eq_some_iff.mp h
      exact (ih (fun d hd => hEach d (List.mem_cons_of_mem _ hd)) hRest).append_left rfl
        (Element.origin_ne_of_update? hNone)

/-- The same for a list of branches. -/
theorem updateBranches?_relabelled {branches branches' : List Branch}
    (hEach : ∀ b ∈ branches, ∀ b', b.update? origin f = some b' →
      Relabelled origin f b.groups b'.groups)
    (h : Branch.updateAll? origin f branches = some branches') :
    Relabelled origin f (Branch.groupsOfAll branches) (Branch.groupsOfAll branches') := by
  induction branches generalizing branches' with
  | nil => cases h
  | cons b rest ih =>
    rw [Branch.updateAll?] at h
    split at h
    · -- the same argument for the branches of a union
      rename_i b' hb
      cases h
      exact (hEach b List.mem_cons_self b' hb).append_right _
    · rename_i hNone
      obtain ⟨rest', hRest, rfl⟩ := Option.map_eq_some_iff.mp h
      exact (ih (fun d hd => hEach d (List.mem_cons_of_mem _ hd)) hRest).append_left rfl
        (Branch.origin_ne_of_update? hNone)

/-- The group of a key is replaced itself. -/
theorem relabelled_self (hf : Element.groupsOfAll (f g).elements = Element.groupsOfAll g.elements)
    (hOrigin : g.origin = origin) : Relabelled origin f g.all (f g).all := by
  refine ⟨[], g, (Element.groupsOfAll g.elements).map Group.label, ?_, ?_, by simp, hOrigin⟩
  · rw [Group.all_eq_cons, List.map_cons, List.nil_append]
  · rw [Group.all_eq_cons, List.map_cons, hf, List.nil_append]

/-- Replacing a group by one that holds the same groups changes no label but its own, whatever part
of a pattern the group is in. -/
theorem treeInduction_relabelled
    (hf : ∀ g, Element.groupsOfAll (f g).elements = Element.groupsOfAll g.elements) :
    TreeInduction
      (fun g => ∀ g', g.update? origin f = some g' → Relabelled origin f g.all g'.all)
      (fun e => ∀ e', e.update? origin f = some e' → Relabelled origin f e.groups e'.groups)
      (fun b => ∀ b', b.update? origin f = some b' → Relabelled origin f b.groups b'.groups) where
  members o elements ih g' h := by
    rw [Group.update?] at h
    -- the group itself if it has the key, else the first one below that has it
    split at h
    · rename_i hOrigin
      cases h
      exact relabelled_self (hf _) (beq_iff_eq.mp hOrigin)
    · rename_i hOther
      obtain ⟨elements', hAll, rfl⟩ := Option.map_eq_some_iff.mp h
      have hLabel : [(⟨o, elements⟩ : Group)].map Group.label =
          [(⟨o, elements'⟩ : Group)].map Group.label := by
        rw [List.map_singleton, List.map_singleton, label_of_updateAll? hAll]
      exact (updateAll?_relabelled ih hAll).append_left hLabel (by simpa using hOther)
  triple t e' h := by cases h
  filter e e' h := by cases h
  bind b e' h := by cases h
  optional g ih e' h := by
    obtain ⟨g', hg, rfl⟩ := Option.map_eq_some_iff.mp h
    exact ih g' hg
  union branches ih e' h := by
    obtain ⟨branches', hAll, rfl⟩ := Option.map_eq_some_iff.mp h
    exact updateBranches?_relabelled ih hAll
  nested b ih e' h := by
    obtain ⟨b', hb, rfl⟩ := Option.map_eq_some_iff.mp h
    exact ih b' hb
  group g ih b' h := by
    obtain ⟨g', hg, rfl⟩ := Option.map_eq_some_iff.mp h
    exact ih g' hg
  select q ih b' h := by
    obtain ⟨q', hq, rfl⟩ := Option.map_eq_some_iff.mp h
    rw [SelectQuery.update?_eq] at hq
    obtain ⟨body', hBody, rfl⟩ := Option.map_eq_some_iff.mp hq
    simpa [Branch.groups, SelectQuery.groups_eq] using ih body' hBody

/-- Replacing a group by one that holds the same groups changes no label but its own. -/
theorem update?_relabelled
    (hf : ∀ g, Element.groupsOfAll (f g).elements = Element.groupsOfAll g.elements) :
    ∀ g g' : Group, g.update? origin f = some g' → Relabelled origin f g.all g'.all :=
  (treeInduction_relabelled hf).onGroup

-- ---------------------------------------------------------------------------
-- The bindings of the group that is found
-- ---------------------------------------------------------------------------

/-- The bindings among the elements of the first group of a key. -/
def Group.bindsOf? (g : Group) (origin : Option String) : Option (List Binding) :=
  (g.ofOrigin? origin).map Group.binds

/-- The binds of an origin are read off the labels of all groups alone. -/
theorem Group.bindsOf?_eq_labels (g : Group) (origin : Option String) :
    g.bindsOf? origin = ((g.all.map Group.label).find? (·.1 == origin)).map (·.2) := by
  rw [Group.bindsOf?, Group.ofOrigin?, List.find?_map, Option.map_map]
  rfl

theorem find?_label_cons (l : Option String × List Binding)
    (rest : List (Option String × List Binding)) :
    (l :: rest).find? (·.1 == origin) =
      if l.1 = origin then some l else rest.find? (·.1 == origin) := by
  by_cases h : l.1 = origin <;> simp [h]

/-- A search for another key comes to a group with the same bindings. -/
theorem Group.bindsOf?_updateOrigin_of_ne (hOther : o ≠ origin) (hf : ∀ g, (f g).origin = g.origin)
    (hGroups : ∀ g, Element.groupsOfAll (f g).elements = Element.groupsOfAll g.elements)
    (g : Group) : (g.updateOrigin o f).bindsOf? origin = g.bindsOf? origin := by
  unfold Group.updateOrigin
  cases h : g.update? o f with
  | none => rfl
  | some g' =>
    obtain ⟨before, k, after, hBefore, hAfter, -, hOrigin⟩ := update?_relabelled hGroups g g' h
    have hNot (l : Option String × List Binding) (hl : l.1 = o) : ¬ l.1 = origin :=
      fun hSame => hOther (hl.symm.trans hSame)
    rw [Option.getD_some, Group.bindsOf?_eq_labels, Group.bindsOf?_eq_labels, hBefore, hAfter,
      List.find?_append, List.find?_append, find?_label_cons, find?_label_cons,
      if_neg (hNot k.label hOrigin), if_neg (hNot (f k).label ((hf k).trans hOrigin))]

/-- A search for the key itself comes to the replacement of the group that was found before. -/
theorem Group.bindsOf?_updateOrigin_self (hf : ∀ g, (f g).origin = g.origin)
    (hGroups : ∀ g, Element.groupsOfAll (f g).elements = Element.groupsOfAll g.elements)
    (hFound : g.ofOrigin? origin = some g') :
    ∃ k, k.label = g'.label ∧ (g.updateOrigin origin f).bindsOf? origin = some (f k).binds := by
  have hThere : g.HasOrigin origin :=
    ⟨g', List.mem_of_find?_eq_some hFound, by simpa using List.find?_some hFound⟩
  obtain ⟨h, hUpdate⟩ := Option.isSome_iff_exists.mp (hThere.update?_isSome (f := f))
  obtain ⟨before, k, after, hBefore, hAfter, hNone, hOrigin⟩ :=
    update?_relabelled hGroups g h hUpdate
  -- the labels before the one that was found are those of other groups
  have hSkip : before.find? (·.1 == origin) = none := by
    rw [List.find?_eq_none]
    exact fun l hl => by simpa using hNone l hl
  refine ⟨k, ?_, ?_⟩
  · have hLabel : (g.all.map Group.label).find? (·.1 == origin) = some g'.label := by
      rw [List.find?_map]
      exact congrArg (Option.map Group.label) hFound
    rw [hBefore, List.find?_append, hSkip, Option.none_or, find?_label_cons,
      if_pos (show k.label.1 = origin from hOrigin)] at hLabel
    exact Option.some.inj hLabel
  · rw [Group.updateOrigin, hUpdate, Option.getD_some, Group.bindsOf?_eq_labels, hAfter,
      List.find?_append, hSkip, Option.none_or, find?_label_cons,
      if_pos (show (f k).label.1 = origin from (hf k).trans hOrigin)]
    rfl

end

end SparqlSelect
