import Mathlib.Data.List.Forall2
import SparqlSelect.Query.Groups

/-!
# Queries that agree but for conditions

Two patterns are alike if they have the same shape and the same terms, and each condition of one is
related to the condition in the same place of the other. Everything that is read off a pattern other
than its conditions is then the same for both: its groups and their keys, its variables, its
bindings. What is done to one pattern by looking at these is done to the other in the same place.

* `Group.Alike.all` — the groups inside, one by one.
* `Group.Alike.variables_eq` — the variables.
* `Group.Alike.ofOrigin?`, `Group.Alike.updateOrigin` — the group of a key.
-/

namespace SparqlSelect

mutual

/-- Groups that agree but for conditions, which a relation connects. -/
inductive Group.Alike (R : String → String → Prop) : Group → Group → Prop
  | mk {origin elements elements'} : Element.AllAlike R elements elements' →
    Group.Alike R ⟨origin, elements⟩ ⟨origin, elements'⟩

/-- Lists of elements that agree but for conditions. -/
inductive Element.AllAlike (R : String → String → Prop) : List Element → List Element → Prop
  | nil : Element.AllAlike R [] []
  | cons {e e' rest rest'} : Element.Alike R e e' → Element.AllAlike R rest rest' →
    Element.AllAlike R (e :: rest) (e' :: rest')

/-- Elements that agree but for conditions. -/
inductive Element.Alike (R : String → String → Prop) : Element → Element → Prop
  | triple (t) : Element.Alike R (.triple t) (.triple t)
  | filter {e e'} : R e e' → Element.Alike R (.filter e) (.filter e')
  | bind (b) : Element.Alike R (.bind b) (.bind b)
  | optional {g g'} : Group.Alike R g g' → Element.Alike R (.optional g) (.optional g')
  | union {branches branches'} : Branch.AllAlike R branches branches' →
    Element.Alike R (.union branches) (.union branches')
  | nested {b b'} : Branch.Alike R b b' → Element.Alike R (.nested b) (.nested b')

/-- Lists of branches that agree but for conditions. -/
inductive Branch.AllAlike (R : String → String → Prop) : List Branch → List Branch → Prop
  | nil : Branch.AllAlike R [] []
  | cons {b b' rest rest'} : Branch.Alike R b b' → Branch.AllAlike R rest rest' →
    Branch.AllAlike R (b :: rest) (b' :: rest')

/-- Branches that agree but for conditions. -/
inductive Branch.Alike (R : String → String → Prop) : Branch → Branch → Prop
  | group {g g'} : Group.Alike R g g' → Branch.Alike R (.group g) (.group g')
  | select {prefixes projection body body' modifiers distinct} : Group.Alike R body body' →
    Branch.Alike R (.select ⟨prefixes, projection, body, modifiers, distinct⟩)
      (.select ⟨prefixes, projection, body', modifiers, distinct⟩)

end

/-- Queries whose patterns agree but for conditions, and that agree in everything else. -/
structure SelectQuery.Alike (R : String → String → Prop) (q q' : SelectQuery) : Prop where
  prefixes : q.prefixes = q'.prefixes
  projection : q.projection = q'.projection
  body : Group.Alike R q.body q'.body
  modifiers : q.modifiers = q'.modifiers
  distinct : q.distinct = q'.distinct

-- ---------------------------------------------------------------------------
-- Lists that are related item by item
-- ---------------------------------------------------------------------------

section

variable {α β γ δ : Type} {P : α → β → Prop} {xs : List α} {ys : List β}

/-- Lists related member by member keep the same values under functions that agree on related
members. -/
theorem filterMap_eq_of_forall₂ {f : α → Option γ} {g : β → Option γ}
    (h : List.Forall₂ P xs ys) (hfg : ∀ a b, P a b → f a = g b) :
    xs.filterMap f = ys.filterMap g := by
  induction h with
  | nil => rfl
  | cons hab _ ih => rw [List.filterMap_cons, List.filterMap_cons, hfg _ _ hab, ih]

/-- Lists related member by member are written the same when related members are. -/
theorem flatMap_eq_of_forall₂ {f : α → List γ} {g : β → List γ} (h : List.Forall₂ P xs ys)
    (hfg : ∀ a b, P a b → f a = g b) : xs.flatMap f = ys.flatMap g := by
  induction h with
  | nil => rfl
  | cons hab _ ih => rw [List.flatMap_cons, List.flatMap_cons, hfg _ _ hab, ih]

/-- A search that cannot tell related members apart stops at the same place in both lists. -/
theorem findIdx?_eq_of_forall₂ {f : α → Bool} {g : β → Bool} (h : List.Forall₂ P xs ys)
    (hfg : ∀ a b, P a b → f a = g b) : xs.findIdx? f = ys.findIdx? g := by
  induction h with
  | nil => rfl
  | cons hab _ ih => rw [List.findIdx?_cons, List.findIdx?_cons, hfg _ _ hab, ih]

/-- A search that cannot tell related members apart finds related members, or none in either list.
-/
theorem find?_of_forall₂ {f : α → Bool} {g : β → Bool} (h : List.Forall₂ P xs ys)
    (hfg : ∀ a b, P a b → f a = g b) : Option.Rel P (xs.find? f) (ys.find? g) := by
  induction h with
  | nil => exact .none
  | @cons a b _ _ hab _ ih =>
    rw [List.find?_cons, List.find?_cons, hfg a b hab]
    cases g b with
    | true => exact .some hab
    | false => exact ih

/-- Two optional values are related when both are missing, or both are there and related. -/
theorem optionRel_iff {x : Option α} {y : Option β} :
    Option.Rel P x y ↔ (x = none ∧ y = none) ∨ ∃ a b, x = some a ∧ y = some b ∧ P a b := by
  constructor
  · rintro (h | _)
    · exact .inr ⟨_, _, rfl, rfl, h⟩
    · exact .inl ⟨rfl, rfl⟩
  · rintro (⟨rfl, rfl⟩ | ⟨a, b, rfl, rfl, h⟩)
    · exact .none
    · exact .some h

theorem optionRel_map {Q : γ → δ → Prop} {f : α → γ} {g : β → δ} {x : Option α} {y : Option β}
    (h : Option.Rel P x y) (hfg : ∀ a b, P a b → Q (f a) (g b)) :
    Option.Rel Q (x.map f) (y.map g) := by
  cases h with
  | none => exact .none
  | some hab => exact .some (hfg _ _ hab)

end

section

variable {R : String → String → Prop}

-- ---------------------------------------------------------------------------
-- Lists of elements and of branches
-- ---------------------------------------------------------------------------

/-- The mutual relation on lists of elements is the relation of `List.Forall₂`, which has the
library's lemmas. -/
theorem Element.allAlike_iff {elements elements' : List Element} :
    Element.AllAlike R elements elements' ↔
      List.Forall₂ (Element.Alike R) elements elements' := by
  constructor
  · -- both relations grow at the front, so each is read off the other
    intro h
    induction elements generalizing elements' with
    | nil =>
      cases h
      exact .nil
    | cons e rest ih =>
      cases h with
      | cons he hRest => exact .cons he (ih hRest)
  · intro h
    induction h with
    | nil => exact .nil
    | cons he _ ih => exact .cons he ih

theorem Branch.allAlike_iff {branches branches' : List Branch} :
    Branch.AllAlike R branches branches' ↔ List.Forall₂ (Branch.Alike R) branches branches' := by
  constructor
  · intro h
    induction branches generalizing branches' with
    | nil =>
      cases h
      exact .nil
    | cons b rest ih =>
      cases h with
      | cons hb hRest => exact .cons hb (ih hRest)
  · intro h
    induction h with
    | nil => exact .nil
    | cons hb _ ih => exact .cons hb ih

/-- Groups are alike when their origins agree and their elements are alike one by one. -/
theorem Group.alike_iff {g g' : Group} :
    g.Alike R g' ↔ g.origin = g'.origin ∧
      List.Forall₂ (Element.Alike R) g.elements g'.elements := by
  obtain ⟨origin, elements⟩ := g
  obtain ⟨origin', elements'⟩ := g'
  constructor
  · rintro ⟨h⟩
    exact ⟨rfl, Element.allAlike_iff.mp h⟩
  · rintro ⟨hOrigin, h⟩
    cases hOrigin
    exact .mk (Element.allAlike_iff.mpr h)

theorem Group.Alike.origin_eq {g g' : Group} (h : g.Alike R g') : g.origin = g'.origin :=
  (Group.alike_iff.mp h).1

theorem Group.Alike.elements {g g' : Group} (h : g.Alike R g') :
    List.Forall₂ (Element.Alike R) g.elements g'.elements := (Group.alike_iff.mp h).2

theorem Group.Alike.length_eq {g g' : Group} (h : g.Alike R g') :
    g.elements.length = g'.elements.length := h.elements.length_eq

theorem Group.Alike.add {g g' : Group} {e e' : Element} (h : g.Alike R g')
    (he : e.Alike R e') : (g.add e).Alike R (g'.add e') :=
  Group.alike_iff.mpr ⟨h.origin_eq, List.rel_append h.elements (.cons he .nil)⟩

/-- Putting alike elements at the same place keeps two groups alike. -/
theorem Group.Alike.insertAfter {g g' : Group} {e e' : Element} (h : g.Alike R g')
    (he : e.Alike R e') (position : Nat) :
    (g.insertAfter position e).Alike R (g'.insertAfter position e') := by
  refine Group.alike_iff.mpr ⟨h.origin_eq, ?_⟩
  exact List.rel_append (List.forall₂_take _ h.elements)
    (.cons he (List.forall₂_drop _ h.elements))

mutual

/-- What is alike to itself in each condition is alike to itself. -/
theorem Group.Alike.refl (hR : ∀ e, R e e) : ∀ g : Group, g.Alike R g
  | .mk _ elements => .mk (Element.AllAlike.refl hR elements)

/-- A relation that holds of every expression and itself makes every tree alike to itself; one case
per constructor. -/
theorem Element.AllAlike.refl (hR : ∀ e, R e e) :
    ∀ elements : List Element, Element.AllAlike R elements elements
  | [] => .nil
  | e :: rest => .cons (Element.Alike.refl hR e) (Element.AllAlike.refl hR rest)

theorem Element.Alike.refl (hR : ∀ e, R e e) : ∀ e : Element, e.Alike R e
  | .triple t => .triple t
  | .filter e => .filter (hR e)
  | .bind b => .bind b
  | .optional g => .optional (Group.Alike.refl hR g)
  | .union branches => .union (Branch.AllAlike.refl hR branches)
  | .nested b => .nested (Branch.Alike.refl hR b)

theorem Branch.AllAlike.refl (hR : ∀ e, R e e) :
    ∀ branches : List Branch, Branch.AllAlike R branches branches
  | [] => .nil
  | b :: rest => .cons (Branch.Alike.refl hR b) (Branch.AllAlike.refl hR rest)

theorem Branch.Alike.refl (hR : ∀ e, R e e) : ∀ b : Branch, b.Alike R b
  | .group g => .group (Group.Alike.refl hR g)
  | .select ⟨_, _, body, _, _⟩ => .select (Group.Alike.refl hR body)

end

-- ---------------------------------------------------------------------------
-- What is read off a pattern
-- ---------------------------------------------------------------------------

mutual

/-- The groups inside two groups that are alike are alike one by one. -/
theorem Group.Alike.all {g g' : Group} :
    g.Alike R g' → List.Forall₂ (Group.Alike R) g.all g'.all
  | .mk h => .cons (.mk h) h.groups

/-- Alike trees have alike groups, in the same order. -/
theorem Element.AllAlike.groups {elements elements' : List Element} :
    Element.AllAlike R elements elements' → List.Forall₂ (Group.Alike R)
      (Element.groupsOfAll elements) (Element.groupsOfAll elements')
  | .nil => .nil
  | .cons h hRest => List.rel_append h.groups hRest.groups

theorem Element.Alike.groups {e e' : Element} :
    e.Alike R e' → List.Forall₂ (Group.Alike R) e.groups e'.groups
  | .triple _ => .nil
  | .filter _ => .nil
  | .bind _ => .nil
  | .optional h => h.all
  | .union h => h.groups
  | .nested h => h.groups

theorem Branch.AllAlike.groups {branches branches' : List Branch} :
    Branch.AllAlike R branches branches' → List.Forall₂ (Group.Alike R)
      (Branch.groupsOfAll branches) (Branch.groupsOfAll branches')
  | .nil => .nil
  | .cons h hRest => List.rel_append h.groups hRest.groups

theorem Branch.Alike.groups {b b' : Branch} :
    b.Alike R b' → List.Forall₂ (Group.Alike R) b.groups b'.groups
  | .group h => h.all
  | .select h => h.all

end

/-- Only filters may differ between alike groups, so their triples are the same. -/
theorem Group.Alike.triples_eq {g g' : Group} (h : g.Alike R g') : g.triples = g'.triples :=
  filterMap_eq_of_forall₂ h.elements fun e e' he => by cases he <;> rfl

/-- Alike groups have the same binds. -/
theorem Group.Alike.binds_eq {g g' : Group} (h : g.Alike R g') : g.binds = g'.binds :=
  filterMap_eq_of_forall₂ h.elements fun e e' he => by cases he <;> rfl

/-- Conditions declare no variables. -/
theorem Group.Alike.variables_eq {g g' : Group} (h : g.Alike R g') : g.variables = g'.variables :=
  flatMap_eq_of_forall₂ h.all fun k k' hk => by rw [hk.triples_eq, hk.binds_eq]

-- ---------------------------------------------------------------------------
-- The group of a key
-- ---------------------------------------------------------------------------

/-- Alike trees answer alike groups for an origin. -/
theorem Group.Alike.ofOrigin? {g g' : Group} (h : g.Alike R g') (origin : Option String) :
    Option.Rel (Group.Alike R) (g.ofOrigin? origin) (g'.ofOrigin? origin) :=
  find?_of_forall₂ h.all fun k k' hk => by rw [hk.origin_eq]

section

variable {origin : Option String} {f : Group → Group}

mutual

/-- If one of two groups that are alike holds the group of a key, so does the other, and replacing
both leaves them alike. -/
theorem Group.Alike.update? (hf : ∀ g g', g.Alike R g' → (f g).Alike R (f g')) {g g' : Group} :
    g.Alike R g' → Option.Rel (Group.Alike R) (g.update? origin f) (g'.update? origin f)
  | @Group.Alike.mk _ o elements elements' h => by
    rw [Group.update?, Group.update?]
    split
    · exact .some (hf _ _ (.mk h))
    · exact optionRel_map (Element.AllAlike.updateAll? hf h) fun _ _ => .mk

/-- A change that respects the relation does so when it is made at the first group of an origin: the
search passes over the same groups in both trees and stops in alike ones. -/
theorem Element.AllAlike.updateAll? (hf : ∀ g g', g.Alike R g' → (f g).Alike R (f g'))
    {elements elements' : List Element} : Element.AllAlike R elements elements' →
    Option.Rel (Element.AllAlike R) (Element.updateAll? origin f elements)
      (Element.updateAll? origin f elements')
  | .nil => .none
  | @Element.AllAlike.cons _ e e' rest rest' he hRest => by
    rw [Element.updateAll?, Element.updateAll?]
    rcases optionRel_iff.mp (Element.Alike.update? hf he) with ⟨hx, hy⟩ | ⟨d, d', hx, hy, hd⟩
    · rw [hx, hy]
      exact optionRel_map (Element.AllAlike.updateAll? hf hRest) fun _ _ => .cons he
    · rw [hx, hy]
      exact .some (.cons hd hRest)

theorem Element.Alike.update? (hf : ∀ g g', g.Alike R g' → (f g).Alike R (f g'))
    {e e' : Element} :
    e.Alike R e' → Option.Rel (Element.Alike R) (e.update? origin f) (e'.update? origin f)
  | .triple _ => .none
  | .filter _ => .none
  | .bind _ => .none
  | .optional h => optionRel_map (Group.Alike.update? hf h) fun _ _ => .optional
  | .union h => optionRel_map (Branch.AllAlike.updateAll? hf h) fun _ _ => .union
  | .nested h => optionRel_map (Branch.Alike.update? hf h) fun _ _ => .nested

theorem Branch.AllAlike.updateAll? (hf : ∀ g g', g.Alike R g' → (f g).Alike R (f g'))
    {branches branches' : List Branch} : Branch.AllAlike R branches branches' →
    Option.Rel (Branch.AllAlike R) (Branch.updateAll? origin f branches)
      (Branch.updateAll? origin f branches')
  | .nil => .none
  | @Branch.AllAlike.cons _ b b' rest rest' hb hRest => by
    rw [Branch.updateAll?, Branch.updateAll?]
    rcases optionRel_iff.mp (Branch.Alike.update? hf hb) with ⟨hx, hy⟩ | ⟨d, d', hx, hy, hd⟩
    · rw [hx, hy]
      exact optionRel_map (Branch.AllAlike.updateAll? hf hRest) fun _ _ => .cons hb
    · rw [hx, hy]
      exact .some (.cons hd hRest)

theorem Branch.Alike.update? (hf : ∀ g g', g.Alike R g' → (f g).Alike R (f g'))
    {b b' : Branch} :
    b.Alike R b' → Option.Rel (Branch.Alike R) (b.update? origin f) (b'.update? origin f)
  | .group h => optionRel_map (Group.Alike.update? hf h) fun _ _ => .group
  | @Branch.Alike.select _ prefixes projection body body' modifiers distinct h => by
    rw [Branch.update?, Branch.update?, SelectQuery.update?, SelectQuery.update?, Option.map_map,
      Option.map_map]
    exact optionRel_map (Group.Alike.update? hf h) fun _ _ => .select

end

/-- The same for the change that leaves a tree without the origin as it is. -/
theorem Group.Alike.updateOrigin {g g' : Group} (h : g.Alike R g')
    (hf : ∀ g g', g.Alike R g' → (f g).Alike R (f g')) :
    (g.updateOrigin origin f).Alike R (g'.updateOrigin origin f) := by
  unfold Group.updateOrigin
  rcases optionRel_iff.mp (h.update? hf) with ⟨hx, hy⟩ | ⟨d, d', hx, hy, hd⟩
  · rwa [hx, hy]
  · rwa [hx, hy]

end

end

end SparqlSelect
