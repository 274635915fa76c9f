import SparqlSelect.Proofs.Query.Origins

/-!
# What stands around a group

The first group of a key can be deep inside a pattern. What stands around it is a list of layers,
from the outside in: each layer is a group in which one element is open, and the next layer goes
into the opening. Putting a group there rebuilds the pattern, so a pattern in which the group of a
key is replaced is the same surroundings with another group in them, and nothing else has changed.

The search goes through a pattern in the order in which groups open. It comes to the group in the
opening first if no layer has the key itself or holds a group of the key before the opening.

* `Surroundings.fill` — the pattern with a group in the opening.
* `Surroundings.Avoids` — no group of the key comes before the opening.
* `Group.exists_surroundings` — every group that is found stands in such surroundings.
* `Surroundings.ofOrigin?_fill`, `Surroundings.updateOrigin_fill` — the group in the opening is the
  one that is found and replaced.
-/

namespace SparqlSelect

-- ---------------------------------------------------------------------------
-- Layers
-- ---------------------------------------------------------------------------

/-- A branch without its pattern. -/
inductive Shell where
  | group
  | select (query : SelectQuery)

/-- The branch with a pattern; one that the query has does not count. -/
def Shell.fill : Shell → Group → Branch
  | group, g => .group g
  | select query, g => .select { query with body := g }

/-- An element without one of the groups that it holds. -/
inductive Opening where
  | optional
  | union (before : List Branch) (shell : Shell) (after : List Branch)
  | nested (shell : Shell)

namespace Opening

/-- The element with a group in the opening. -/
def fill : Opening → Group → Element
  | optional, g => .optional g
  | union before shell after, g => .union (before ++ shell.fill g :: after)
  | nested shell, g => .nested (shell.fill g)

/-- The groups of the element that come before the opening. -/
def groupsBefore : Opening → List Group
  | union before _ _ => before.flatMap Branch.groups
  | _ => []

/-- The groups of the element that come after the opening. -/
def groupsAfter : Opening → List Group
  | union _ _ after => after.flatMap Branch.groups
  | _ => []

end Opening

/-- A group with an opening in one of its elements. -/
structure Layer where
  origin : Option String
  before : List Element
  opening : Opening
  after : List Element

namespace Layer

/-- The group with another group in its opening. -/
def fill (l : Layer) (g : Group) : Group := ⟨l.origin, l.before ++ l.opening.fill g :: l.after⟩

/-- Neither the layer nor a group in it before the opening was built for a key. -/
structure Avoids (l : Layer) (key : Option String) : Prop where
  origin : l.origin ≠ key
  elements : ∀ g ∈ l.before.flatMap Element.groups, g.origin ≠ key
  branches : ∀ g ∈ l.opening.groupsBefore, g.origin ≠ key

end Layer

/-- What stands around a group, from the outside in. -/
abbrev Surroundings := List Layer

namespace Surroundings

/-- The pattern with a group in the innermost opening. -/
def fill (around : Surroundings) (g : Group) : Group := around.foldr Layer.fill g

/-- No group that was built for a key comes before the innermost opening. -/
def Avoids (around : Surroundings) (key : Option String) : Prop := ∀ l ∈ around, l.Avoids key

end Surroundings

-- ---------------------------------------------------------------------------
-- Every group that is found has its surroundings
-- ---------------------------------------------------------------------------

section

variable {α : Type} {key : Option String} {f : Group → Group}

/-- Where some members of a list have a property, there is a first one. -/
theorem exists_first {p : α → Prop} {xs : List α} (h : ∃ x ∈ xs, p x) :
    ∃ before x after, xs = before ++ x :: after ∧ p x ∧ ∀ y ∈ before, ¬ p y := by
  classical
  obtain ⟨x, hx, hp⟩ := h
  obtain ⟨y, hy⟩ := Option.isSome_iff_exists.mp
    (List.find?_isSome (p := fun x => decide (p x)).mpr ⟨x, hx, decide_eq_true hp⟩)
  obtain ⟨hFirst, before, after, hSplit, hBefore⟩ := List.find?_eq_some_iff_append.mp hy
  exact ⟨before, y, after, hSplit, of_decide_eq_true hFirst,
    fun z hz => by simpa using hBefore z hz⟩

/-- A group of a key stands in surroundings that no group of the key comes before. -/
theorem treeInduction_surroundings : TreeInduction
    (fun g => g.HasOrigin key →
      ∃ around : Surroundings, ∃ h, around.Avoids key ∧ h.origin = key ∧ g = around.fill h)
    (fun e => (∃ h ∈ e.groups, h.origin = key) →
      ∃ opening : Opening, ∃ around : Surroundings, ∃ h,
        (∀ k ∈ opening.groupsBefore, k.origin ≠ key) ∧ around.Avoids key ∧ h.origin = key ∧
        e = opening.fill (around.fill h))
    (fun b => (∃ h ∈ b.groups, h.origin = key) →
      ∃ shell : Shell, ∃ around : Surroundings, ∃ h,
        around.Avoids key ∧ h.origin = key ∧ b = shell.fill (around.fill h)) := by
  constructor
  case members =>
    rintro o elements ih ⟨k, hk, hOrigin⟩
    -- the first group with the key is this one, or in the first element that has one below it
    by_cases hSelf : o = key
    · exact ⟨[], _, nofun, hSelf, rfl⟩
    rcases Group.mem_all.mp hk with rfl | ⟨e, he, hk⟩
    · exact absurd hOrigin hSelf
    obtain ⟨before, d, after, rfl, hd, hBefore⟩ :=
      exists_first (p := fun e => ∃ h ∈ e.groups, h.origin = key) ⟨e, he, k, hk, hOrigin⟩
    obtain ⟨opening, around, h, hBranches, hAround, hKey, rfl⟩ := ih d (by simp) hd
    refine ⟨⟨o, before, opening, after⟩ :: around, h, ?_, hKey, rfl⟩
    refine List.forall_mem_cons.mpr ⟨⟨hSelf, fun g hg hSame => ?_, hBranches⟩, hAround⟩
    obtain ⟨c, hc, hg⟩ := List.mem_flatMap.mp hg
    exact hBefore c hc ⟨g, hg, hSame⟩
  case triple => rintro t ⟨k, hk, -⟩; cases hk
  case filter => rintro e ⟨k, hk, -⟩; cases hk
  case bind => rintro b ⟨k, hk, -⟩; cases hk
  case optional =>
    intro g ih hThere
    obtain ⟨around, h, hAround, hKey, rfl⟩ := ih hThere
    exact ⟨.optional, around, h, nofun, hAround, hKey, rfl⟩
  case union =>
    rintro branches ih ⟨k, hk, hOrigin⟩
    -- likewise the first branch that has one
    obtain ⟨b, hb, hk⟩ := Branch.mem_groupsOfAll.mp hk
    obtain ⟨before, d, after, rfl, hd, hBefore⟩ :=
      exists_first (p := fun b => ∃ h ∈ b.groups, h.origin = key) ⟨b, hb, k, hk, hOrigin⟩
    obtain ⟨shell, around, h, hAround, hKey, rfl⟩ := ih d (by simp) hd
    refine ⟨.union before shell after, around, h, fun g hg hSame => ?_, hAround, hKey, rfl⟩
    obtain ⟨c, hc, hg⟩ := List.mem_flatMap.mp hg
    exact hBefore c hc ⟨g, hg, hSame⟩
  case nested =>
    intro b ih hThere
    obtain ⟨shell, around, h, hAround, hKey, rfl⟩ := ih hThere
    exact ⟨.nested shell, around, h, nofun, hAround, hKey, rfl⟩
  case group =>
    intro g ih hThere
    obtain ⟨around, h, hAround, hKey, rfl⟩ := ih hThere
    exact ⟨.group, around, h, hAround, hKey, rfl⟩
  case select =>
    rintro ⟨prefixes, projection, body, modifiers, distinct⟩ ih hThere
    obtain ⟨around, h, hAround, hKey, hBody⟩ := ih hThere
    exact ⟨.select ⟨prefixes, projection, body, modifiers, distinct⟩, around, h, hAround, hKey, by
      simp only [Shell.fill, ← hBody]⟩

-- ---------------------------------------------------------------------------
-- The group in the opening
-- ---------------------------------------------------------------------------

/-- A shell adds no group of its own. -/
theorem Shell.groups_fill (shell : Shell) (g : Group) : (shell.fill g).groups = g.all := by
  cases shell with
  | group => rfl
  | select query => rw [fill, Branch.groups, SelectQuery.groups_eq]

/-- The groups of a filled opening are those of the group put in, between those on its two sides. -/
theorem Opening.groups_fill (opening : Opening) (g : Group) :
    (opening.fill g).groups = opening.groupsBefore ++ g.all ++ opening.groupsAfter := by
  cases opening with
  | optional => simp [fill, groupsBefore, groupsAfter, Element.groups]
  | union before shell after =>
    simp [fill, groupsBefore, groupsAfter, Element.groups, Branch.groupsOfAll_eq_flatMap,
      Shell.groups_fill]
  | nested shell =>
    simp [fill, groupsBefore, groupsAfter, Element.groups, Shell.groups_fill]

/-- The search passes over what comes before the opening of a layer. -/
theorem Layer.Avoids.ofOrigin?_fill {l : Layer} (h : l.Avoids key) {g k : Group}
    (hFound : g.ofOrigin? key = some k) : (l.fill g).ofOrigin? key = some k := by
  have hSkip {gs : List Group} (hGroups : ∀ g ∈ gs, g.origin ≠ key) :
      gs.find? (·.origin == key) = none :=
    List.find?_eq_none.mpr fun g hg => by simpa using hGroups g hg
  rw [Group.ofOrigin?] at hFound ⊢
  rw [Group.all_eq, List.find?_cons_of_neg (by simpa [Layer.fill] using h.origin), Layer.fill,
    List.flatMap_append, List.flatMap_cons, Opening.groups_fill]
  simp [List.find?_append, hSkip h.elements, hSkip h.branches, hFound]

/-- Where a group of a key was replaced, there was one. -/
theorem treeInduction_origin_of_update? : TreeInduction
    (fun g => ∀ g', g.update? key f = some g' → g.HasOrigin key)
    (fun e => ∀ e', e.update? key f = some e' → ∃ h ∈ e.groups, h.origin = key)
    (fun b => ∀ b', b.update? key f = some b' → ∃ h ∈ b.groups, h.origin = key) := by
  constructor
  case members =>
    intro o elements ih g' h
    rw [Group.update?] at h
    split at h
    · -- an update that succeeds has found a group with the key, here or below
      rename_i hOrigin
      exact ⟨_, Group.mem_all.mpr (.inl rfl), beq_iff_eq.mp hOrigin⟩
    · obtain ⟨elements', hAll, rfl⟩ := Option.map_eq_some_iff.mp h
      obtain ⟨before, after, e, e', rfl, rfl, he⟩ := Element.updateAll?_eq_some hAll
      obtain ⟨k, hk, hOrigin⟩ := ih e (by simp) e' he
      exact ⟨k, Group.mem_all.mpr (.inr ⟨e, by simp, hk⟩), hOrigin⟩
  case triple => intro t e' h; cases h
  case filter => intro e e' h; cases h
  case bind => intro b e' h; cases h
  case optional =>
    intro g ih e' h
    obtain ⟨g', hg, rfl⟩ := Option.map_eq_some_iff.mp h
    exact ih g' hg
  case union =>
    intro branches ih e' h
    obtain ⟨branches', hAll, rfl⟩ := Option.map_eq_some_iff.mp h
    obtain ⟨before, after, b, b', rfl, rfl, hb⟩ := Branch.updateAll?_eq_some hAll
    obtain ⟨k, hk, hOrigin⟩ := ih b (by simp) b' hb
    exact ⟨k, Branch.mem_groupsOfAll.mpr ⟨b, by simp, hk⟩, hOrigin⟩
  case nested =>
    intro b ih e' h
    obtain ⟨b', hb, rfl⟩ := Option.map_eq_some_iff.mp h
    exact ih b' hb
  case group =>
    intro g ih b' h
    obtain ⟨g', hg, rfl⟩ := Option.map_eq_some_iff.mp h
    exact ih g' hg
  case select =>
    rintro ⟨prefixes, projection, body, modifiers, distinct⟩ ih b' h
    obtain ⟨q', hq, rfl⟩ := Option.map_eq_some_iff.mp h
    obtain ⟨body', hBody, rfl⟩ := Option.map_eq_some_iff.mp hq
    exact ih body' hBody

/-- Elements that hold no group of a key are passed over. -/
theorem Element.updateAll?_skip {before after : List Element} {e e' : Element}
    (hBefore : ∀ g ∈ before.flatMap Element.groups, g.origin ≠ key)
    (h : e.update? key f = some e') :
    Element.updateAll? key f (before ++ e :: after) = some (before ++ e' :: after) := by
  induction before with
  | nil => rw [List.nil_append, Element.updateAll?, h, List.nil_append]
  | cons d rest ih =>
    rw [List.flatMap_cons, List.forall_mem_append] at hBefore
    have hNone : d.update? key f = none := Option.eq_none_iff_forall_ne_some.mpr fun d' hd => by
      obtain ⟨k, hk, hOrigin⟩ := treeInduction_origin_of_update?.onElement d d' hd
      exact hBefore.1 k hk hOrigin
    rw [List.cons_append, Element.updateAll?, hNone, ih hBefore.2]
    rfl

/-- Branches that hold no group of a key are passed over. -/
theorem Branch.updateAll?_skip {before after : List Branch} {b b' : Branch}
    (hBefore : ∀ g ∈ before.flatMap Branch.groups, g.origin ≠ key)
    (h : b.update? key f = some b') :
    Branch.updateAll? key f (before ++ b :: after) = some (before ++ b' :: after) := by
  induction before with
  | nil => rw [List.nil_append, Branch.updateAll?, h, List.nil_append]
  | cons d rest ih =>
    rw [List.flatMap_cons, List.forall_mem_append] at hBefore
    have hNone : d.update? key f = none := Option.eq_none_iff_forall_ne_some.mpr fun d' hd => by
      obtain ⟨k, hk, hOrigin⟩ := treeInduction_origin_of_update?.onBranch d d' hd
      exact hBefore.1 k hk hOrigin
    rw [List.cons_append, Branch.updateAll?, hNone, ih hBefore.2]
    rfl

theorem Shell.update?_fill (shell : Shell) {g g' : Group} (h : g.update? key f = some g') :
    (shell.fill g).update? key f = some (shell.fill g') := by
  cases shell with
  | group => rw [fill, Branch.update?, h]; rfl
  | select query => rw [fill, Branch.update?, SelectQuery.update?_eq, h]; rfl

/-- The search reaches the hole when no group before it has the key, so the change is made inside.
-/
theorem Opening.update?_fill {opening : Opening} {g g' : Group}
    (hBefore : ∀ g ∈ opening.groupsBefore, g.origin ≠ key) (h : g.update? key f = some g') :
    (opening.fill g).update? key f = some (opening.fill g') := by
  cases opening with
  | optional => rw [fill, Element.update?, h]; rfl
  | union before shell after =>
    rw [fill, Element.update?, Branch.updateAll?_skip hBefore (shell.update?_fill h)]
    rfl
  | nested shell => rw [fill, Element.update?, shell.update?_fill h]; rfl

theorem Layer.Avoids.update?_fill {l : Layer} (hAvoids : l.Avoids key) {g g' : Group}
    (h : g.update? key f = some g') : (l.fill g).update? key f = some (l.fill g') := by
  rw [Layer.fill, Group.update?, if_neg (by simpa using hAvoids.origin),
    Element.updateAll?_skip hAvoids.elements (Opening.update?_fill hAvoids.branches h)]
  rfl

/-- The group in the opening is the first of its key. -/
theorem Surroundings.ofOrigin?_fill {around : Surroundings} (hAvoids : around.Avoids key)
    {h : Group} (hKey : h.origin = key) : (around.fill h).ofOrigin? key = some h := by
  induction around with
  | nil =>
    rw [fill, List.foldr_nil, Group.ofOrigin?, Group.all_eq]
    exact List.find?_cons_of_pos (by simpa using hKey)
  | cons l rest ih =>
    exact (hAvoids l List.mem_cons_self).ofOrigin?_fill
      (ih fun l hl => hAvoids l (List.mem_cons_of_mem _ hl))

/-- The group in the opening is the one that is replaced, and nothing else is. -/
theorem Surroundings.updateOrigin_fill {around : Surroundings} (hAvoids : around.Avoids key)
    {h : Group} (hKey : h.origin = key) :
    (around.fill h).updateOrigin key f = around.fill (f h) := by
  suffices hUpdate : (around.fill h).update? key f = some (around.fill (f h)) by
    rw [Group.updateOrigin, hUpdate, Option.getD_some]
  induction around with
  | nil =>
    obtain ⟨origin, elements⟩ := h
    exact if_pos (beq_iff_eq.mpr hKey)
  | cons l rest ih =>
    exact (hAvoids l List.mem_cons_self).update?_fill
      (ih fun l hl => hAvoids l (List.mem_cons_of_mem _ hl))

/-- The first group of a key stands somewhere, with no group of the key before it. -/
theorem Group.exists_surroundings {g h : Group} (hFound : g.ofOrigin? key = some h) :
    ∃ around : Surroundings, around.Avoids key ∧ h.origin = key ∧ g = around.fill h := by
  have hOrigin : h.origin = key := by simpa using List.find?_some hFound
  obtain ⟨around, k, hAvoids, hKey, rfl⟩ :=
    treeInduction_surroundings.onGroup g ⟨h, List.mem_of_find?_eq_some hFound, hOrigin⟩
  rw [Surroundings.ofOrigin?_fill hAvoids hKey] at hFound
  obtain rfl := Option.some.inj hFound
  exact ⟨around, hAvoids, hKey, rfl⟩

end

end SparqlSelect
