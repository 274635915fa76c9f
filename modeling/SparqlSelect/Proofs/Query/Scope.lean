import Mathlib.Logic.Basic
import SparqlSelect.Proofs.Query.Tree

/-!
# What a pattern declares

A pattern declares the terms of its triples and the variables of its bindings, at whatever depth. A
binding that is put into the group of a key declares its variable and takes nothing away. If the
first elements of a group hold the group of the key, all others are left alone.

* `Group.Declares` — a term or a variable is declared.
* `Group.HasOrigin` — there is a group of a key, which can then be replaced.
* `Group.update?_append`, `Group.ofOrigin?_append` — elements after the group of the key.
* `insert_beside` — an element that is inserted stands on one side of another.
-/

namespace SparqlSelect

/-- The terms of a triple in the order of its slots. -/
def Triple.slots (t : Triple) : List String := [t.subject, t.predicate, t.object]

/-- A triple declares its terms and a binding its variable. -/
def Element.Declares (v : String) : Element → Prop
  | .triple t => v ∈ t.slots
  | .bind b => b.var = v
  | .filter _ | .optional _ | .union _ | .nested _ => False

/-- A term or a variable is declared in a group or inside it. -/
def Group.Declares (v : String) (g : Group) : Prop :=
  ∃ h ∈ g.all, ∃ e ∈ h.elements, e.Declares v

/-- There is a group of a key. -/
def Group.HasOrigin (origin : Option String) (g : Group) : Prop := ∃ h ∈ g.all, h.origin = origin

section

variable {v : String} {origin o : Option String} {f : Group → Group} {g g' : Group}
  {xs xs' ys : List Element}

-- ---------------------------------------------------------------------------
-- Declarations
-- ---------------------------------------------------------------------------

/-- Nothing in a group declares what the group does not declare. -/
theorem Group.declares_iff : g.Declares v ↔ ¬ g.Everywhere fun e => ¬ e.Declares v := by
  simp only [Group.Declares, Group.Everywhere, not_forall, not_not, exists_prop]

/-- A group declares what some of its elements declare. -/
theorem Group.Declares.mono (h : g.Declares v) (hSub : g.elements ⊆ g'.elements) :
    g'.Declares v := by
  rw [Group.declares_iff, Group.everywhere_iff] at h ⊢
  exact fun hNone => h fun e he => hNone e (hSub he)

/-- A group declares what one of its elements declares. -/
theorem Group.declares_of_mem {e : Element} (he : e ∈ xs) (h : e.Declares v) :
    (Group.mk o xs).Declares v :=
  ⟨_, Group.mem_all.mpr (.inl rfl), e, he, h⟩

/-- A relation that passes from a part to the whole does so the other way round. -/
theorem Congruence.flip {RG : Group → Group → Prop} {RE : Element → Element → Prop}
    {RB : Branch → Branch → Prop} (h : Congruence RG RE RB) :
    Congruence (fun g g' => RG g' g) (fun e e' => RE e' e) (fun b b' => RB b' b) where
  members origin before after e f hef := h.members origin before after f e hef
  optional g g' hg := h.optional g' g hg
  union before after b c hbc := h.union before after c b hbc
  nested b c hbc := h.nested c b hbc
  group g g' hg := h.group g' g hg
  select q g' hg := by
    obtain ⟨prefixes, projection, body, modifiers, distinct⟩ := q
    exact h.select ⟨prefixes, projection, g', modifiers, distinct⟩ body hg

/-- What is not declared in a whole is not declared in a part of it. -/
theorem congruence_undeclared (v : String) :
    Congruence
      (fun g g' => g'.Everywhere (¬ ·.Declares v) → g.Everywhere (¬ ·.Declares v))
      (fun e e' => e'.Everywhere (¬ ·.Declares v) → e.Everywhere (¬ ·.Declares v))
      (fun b b' => b'.Everywhere (¬ ·.Declares v) → b.Everywhere (¬ ·.Declares v)) :=
  (congruence_everywhere _ (fun _ => not_false) (fun _ => not_false) fun _ => not_false).flip

/-- Replacing a group by one that declares as much takes no declaration away. -/
theorem Group.Declares.update? (hf : ∀ g : Group, g.Declares v → (f g).Declares v)
    (hUpdate : g.update? origin f = some g') (h : g.Declares v) : g'.Declares v := by
  rw [Group.declares_iff] at h ⊢
  refine fun hNone => h ((congruence_undeclared v).update? (fun g hg => ?_) g g' hUpdate hNone)
  exact not_not.mp fun hSome =>
    Group.declares_iff.mp (hf g (Group.declares_iff.mpr hSome)) hg

/-- A declaration in a part is one in the whole. -/
theorem congruence_declares (v : String) :
    Congruence (fun _ g => ¬ g.Everywhere (¬ ·.Declares v))
      (fun _ e => ¬ e.Everywhere (¬ ·.Declares v))
      (fun _ b => ¬ b.Everywhere (¬ ·.Declares v)) where
  members _ _ _ _ f hf hAll :=
    hf (Group.everywhere_mk.mp hAll f (List.mem_append_right _ List.mem_cons_self))
  optional _ _ hg hAll := hg (Element.everywhere_optional.mp hAll).2
  union _ _ _ c hc hAll :=
    hc ((Element.everywhere_union.mp hAll).2 c (List.mem_append_right _ List.mem_cons_self))
  nested _ _ hc hAll := hc (Element.everywhere_nested.mp hAll).2
  group _ _ hg hAll := hg (Branch.everywhere_group.mp hAll)
  select _ _ hg hAll := hg (Branch.everywhere_select.mp hAll)

/-- Replacing a group by one that declares something declares it. -/
theorem Group.declares_of_update? (hf : ∀ g, (f g).Declares v)
    (hUpdate : g.update? origin f = some g') : g'.Declares v :=
  Group.declares_iff.mpr ((congruence_declares v).update?
    (fun g => Group.declares_iff.mp (hf g)) g g' hUpdate)

-- ---------------------------------------------------------------------------
-- Groups of a key
-- ---------------------------------------------------------------------------

/-- A group that only grows keeps the origins it has. -/
theorem Group.HasOrigin.mono (h : g.HasOrigin origin) (hSame : g'.origin = g.origin)
    (hSub : g.elements ⊆ g'.elements) : g'.HasOrigin origin := by
  obtain ⟨k, hk, hOrigin⟩ := h
  rcases Group.mem_all.mp hk with rfl | ⟨e, he, hk⟩
  · exact ⟨g', Group.mem_all.mpr (.inl rfl), hSame.trans hOrigin⟩
  · exact ⟨k, Group.mem_all.mpr (.inr ⟨e, hSub he, hk⟩), hOrigin⟩

/-- A group of a key inside a part is one inside the whole. -/
theorem congruence_hasOrigin (key : Option String) :
    Congruence (fun g g' => g.HasOrigin key → g'.HasOrigin key)
      (fun e e' => (∃ h ∈ e.groups, h.origin = key) → ∃ h ∈ e'.groups, h.origin = key)
      (fun b b' => (∃ h ∈ b.groups, h.origin = key) → ∃ h ∈ b'.groups, h.origin = key) where
  members origin before after e f hef := by
    rintro ⟨k, hk, hOrigin⟩
    rcases Group.mem_all.mp hk with rfl | ⟨d, hd, hkd⟩
    · exact ⟨_, Group.mem_all.mpr (.inl rfl), hOrigin⟩
    -- the group stands before the changed element, in it, or after it
    rcases List.mem_append.mp hd with hd | hd
    · exact ⟨k, Group.mem_all.mpr (.inr ⟨d, List.mem_append_left _ hd, hkd⟩), hOrigin⟩
    rcases List.mem_cons.mp hd with rfl | hd
    · obtain ⟨k, hkf, hOrigin⟩ := hef ⟨k, hkd, hOrigin⟩
      exact ⟨k, Group.mem_all.mpr (.inr ⟨f, by simp, hkf⟩), hOrigin⟩
    · exact ⟨k, Group.mem_all.mpr (.inr ⟨d, by simp [hd], hkd⟩), hOrigin⟩
  optional _ _ hg := hg
  union before after b c hbc := by
    rintro ⟨k, hk, hOrigin⟩
    obtain ⟨d, hd, hkd⟩ := Branch.mem_groupsOfAll.mp hk
    rcases List.mem_append.mp hd with hd | hd
    · exact ⟨k, Branch.mem_groupsOfAll.mpr ⟨d, List.mem_append_left _ hd, hkd⟩, hOrigin⟩
    rcases List.mem_cons.mp hd with rfl | hd
    · obtain ⟨k, hkc, hOrigin⟩ := hbc ⟨k, hkd, hOrigin⟩
      exact ⟨k, Branch.mem_groupsOfAll.mpr ⟨c, by simp, hkc⟩, hOrigin⟩
    · exact ⟨k, Branch.mem_groupsOfAll.mpr ⟨d, by simp [hd], hkd⟩, hOrigin⟩
  nested _ _ hbc := hbc
  group _ _ hg := hg
  select q g' hg := by
    obtain ⟨prefixes, projection, body, modifiers, distinct⟩ := q
    exact hg

/-- Where there is a group of a key, it can be replaced. -/
theorem Element.updateAll?_isSome {elements : List Element}
    (h : ∃ e ∈ elements, (e.update? origin f).isSome = true) :
    (Element.updateAll? origin f elements).isSome = true := by
  induction elements with
  | nil => obtain ⟨e, he, -⟩ := h; cases he
  | cons e rest ih =>
    rw [Element.updateAll?]
    split
    · rfl
    · -- not the first element, so it is one of the rest
      rename_i hNone
      obtain ⟨d, hd, hSome⟩ := h
      rcases List.mem_cons.mp hd with rfl | hd
      · rw [hNone] at hSome
        cases hSome
      · rw [Option.isSome_map]
        exact ih ⟨d, hd, hSome⟩

/-- A change succeeds in a list of branches when it does in one of them. -/
theorem Branch.updateAll?_isSome {branches : List Branch}
    (h : ∃ b ∈ branches, (b.update? origin f).isSome = true) :
    (Branch.updateAll? origin f branches).isSome = true := by
  induction branches with
  | nil => obtain ⟨b, hb, -⟩ := h; cases hb
  | cons b rest ih =>
    rw [Branch.updateAll?]
    split
    · rfl
    · rename_i hNone
      -- not the first branch, so it is one of the rest
      obtain ⟨d, hd, hSome⟩ := h
      rcases List.mem_cons.mp hd with rfl | hd
      · rw [hNone] at hSome
        cases hSome
      · rw [Option.isSome_map]
        exact ih ⟨d, hd, hSome⟩

/-- The search for an origin fails in no tree that has a group of it. -/
theorem treeInduction_update?_isSome :
    TreeInduction (fun g => g.HasOrigin origin → (g.update? origin f).isSome = true)
      (fun e => (∃ h ∈ e.groups, h.origin = origin) → (e.update? origin f).isSome = true)
      (fun b => (∃ h ∈ b.groups, h.origin = origin) → (b.update? origin f).isSome = true) := by
  constructor
  case members =>
    rintro o elements ih ⟨k, hk, hOrigin⟩
    rw [Group.update?]
    split
    · rfl
    · rename_i hOther
      rw [Option.isSome_map]
      -- the group that has the key is not this one, so it is below an element
      rcases Group.mem_all.mp hk with rfl | ⟨e, he, hk⟩
      · exact absurd (beq_iff_eq.mpr hOrigin) hOther
      · exact Element.updateAll?_isSome ⟨e, he, ih e he ⟨k, hk, hOrigin⟩⟩
  case triple => rintro t ⟨k, hk, -⟩; cases hk
  case filter => rintro e ⟨k, hk, -⟩; cases hk
  case bind => rintro b ⟨k, hk, -⟩; cases hk
  case optional =>
    intro g ih h
    rw [Element.update?, Option.isSome_map]
    exact ih h
  case union =>
    rintro branches ih ⟨k, hk, hOrigin⟩
    obtain ⟨b, hb, hk⟩ := Branch.mem_groupsOfAll.mp hk
    rw [Element.update?, Option.isSome_map]
    exact Branch.updateAll?_isSome ⟨b, hb, ih b hb ⟨k, hk, hOrigin⟩⟩
  case nested =>
    intro b ih h
    rw [Element.update?, Option.isSome_map]
    exact ih h
  case group =>
    intro g ih h
    rw [Branch.update?, Option.isSome_map]
    exact ih h
  case select =>
    rintro ⟨prefixes, projection, body, modifiers, distinct⟩ ih h
    rw [Branch.update?, Option.isSome_map, SelectQuery.update?_eq, Option.isSome_map]
    exact ih h

/-- A group of a key can be replaced if it is there. -/
theorem Group.HasOrigin.update?_isSome :
    ∀ g : Group, g.HasOrigin origin → (g.update? origin f).isSome = true :=
  treeInduction_update?_isSome.onGroup

/-- Where no group can be replaced, there is none of the key. -/
theorem Element.origin_ne_of_update? {e : Element} (h : e.update? origin f = none) :
    ∀ g ∈ e.groups, g.origin ≠ origin := fun g hg hOrigin => by
  have hSome := treeInduction_update?_isSome (f := f).onElement e ⟨g, hg, hOrigin⟩
  rw [h] at hSome
  cases hSome

/-- A branch the search fails in has no group of the origin. -/
theorem Branch.origin_ne_of_update? {b : Branch} (h : b.update? origin f = none) :
    ∀ g ∈ b.groups, g.origin ≠ origin := fun g hg hOrigin => by
  have hSome := treeInduction_update?_isSome (f := f).onBranch b ⟨g, hg, hOrigin⟩
  rw [h] at hSome
  cases hSome

/-- Elements after the one in which a group was replaced are left alone. -/
theorem Element.updateAll?_append (h : Element.updateAll? origin f xs = some xs') :
    Element.updateAll? origin f (xs ++ ys) = some (xs' ++ ys) := by
  induction xs generalizing xs' with
  | nil => cases h
  | cons e rest ih =>
    rw [Element.updateAll?] at h
    rw [List.cons_append, Element.updateAll?]
    split at h
    · cases h
      rfl
    · obtain ⟨rest', hRest, rfl⟩ := Option.map_eq_some_iff.mp h
      rw [ih hRest]
      rfl

/-- The group of a key among the first elements of a group is replaced there. -/
theorem Group.update?_append (hOther : o ≠ origin) (h : (Group.mk o xs).HasOrigin origin) :
    ∃ xs', (Group.mk o xs).update? origin f = some ⟨o, xs'⟩ ∧
      ∀ ys, (Group.mk o (xs ++ ys)).update? origin f = some ⟨o, xs' ++ ys⟩ := by
  have hNot : ¬ (o == origin) = true := fun hSame => hOther (beq_iff_eq.mp hSame)
  obtain ⟨g', hUpdate⟩ := Option.isSome_iff_exists.mp (Group.HasOrigin.update?_isSome (f := f) _ h)
  rw [Group.update?, if_neg hNot] at hUpdate
  obtain ⟨xs', hAll, rfl⟩ := Option.map_eq_some_iff.mp hUpdate
  refine ⟨xs', ?_, fun ys => ?_⟩
  · rw [Group.update?, if_neg hNot, hAll]
    rfl
  · rw [Group.update?, if_neg hNot, Element.updateAll?_append hAll]
    rfl

theorem Element.groupsOfAll_append (xs ys : List Element) :
    Element.groupsOfAll (xs ++ ys) = Element.groupsOfAll xs ++ Element.groupsOfAll ys := by
  induction xs with
  | nil => rfl
  | cons e rest ih =>
    rw [List.cons_append, Element.groupsOfAll, Element.groupsOfAll, ih, List.append_assoc]

/-- The first group of a key is found among the first elements, if there is one. -/
theorem Group.ofOrigin?_append (hOther : o ≠ origin) (h : (Group.mk o xs).HasOrigin origin)
    (hFound : (Group.mk o (xs ++ ys)).ofOrigin? origin = some g) :
    ∃ e ∈ xs, g ∈ e.groups := by
  obtain ⟨k, hk, hOrigin⟩ := h
  rcases Group.mem_all.mp hk with rfl | ⟨e, he, hk⟩
  · exact absurd hOrigin hOther
  rw [Group.ofOrigin?, Group.all, List.find?_cons_of_neg (by simpa using hOther),
    Element.groupsOfAll_append, List.find?_append] at hFound
  -- the search ends before it comes to the others
  have hSome : ((Element.groupsOfAll xs).find? (·.origin == origin)).isSome = true :=
    List.find?_isSome.mpr ⟨k, Element.mem_groupsOfAll.mpr ⟨e, he, hk⟩, beq_iff_eq.mpr hOrigin⟩
  obtain ⟨first, hFirst⟩ := Option.isSome_iff_exists.mp hSome
  rw [hFirst] at hFound
  cases hFound
  exact Element.mem_groupsOfAll.mp (List.mem_of_find?_eq_some hFirst)

end

-- ---------------------------------------------------------------------------
-- Elements on one side of another
-- ---------------------------------------------------------------------------

/-- What is inserted into a list stands on one side of any single member. -/
theorem insert_beside {α : Type} {u v xs mid ys : List α} (h : u ++ v = xs ++ mid ++ ys)
    (hMid : mid.length ≤ 1) (b : α) :
    ∃ xs' ys', u ++ b :: v = xs' ++ mid ++ ys' ∧ xs ⊆ xs' ∧ ys ⊆ ys' ∧ b ∈ xs' ++ ys' := by
  rw [List.append_assoc] at h
  rcases List.append_eq_append_iff.mp h with ⟨w, rfl, rfl⟩ | ⟨w, rfl, hRest⟩
  · -- before the member
    exact ⟨u ++ b :: w, ys, by simp, by simp, List.Subset.refl _, by simp⟩
  · cases mid with
    | nil =>
      obtain rfl : ys = w ++ v := hRest
      exact ⟨xs, w ++ b :: v, by simp, List.Subset.refl _, by simp, by simp⟩
    | cons m rest =>
      obtain rfl : rest = [] := List.eq_nil_of_length_eq_zero (by simpa using hMid)
      cases w with
      | nil =>
        cases hRest
        exact ⟨xs ++ [b], ys, by simp, by simp, List.Subset.refl _, by simp⟩
      | cons d w =>
        -- after the member
        obtain ⟨rfl, rfl⟩ := List.cons.inj hRest
        exact ⟨xs, w ++ b :: v, by simp, List.Subset.refl _, by simp, by simp⟩

end SparqlSelect
