import SparqlSelect.Proofs.Request.Place

/-!
# Clauses in another order

The members of a list may belong to streams. Two lists are reordered if they have the same members
and each stream of them has the same order in both; what comes from one stream only is then the same
for both.

A clause is read by itself, so reordered items are read to reordered clauses: if one of them is no
clause, both specs are rejected.

* `Reordered`, `Reordered.filterMap_eq` — lists and what comes from one stream of them.
* `readClauses_eq_ok_iff` — the clauses of some items, `readClauses_insert` — of one item more.
* `SpecPlace.readSpec_reordered` — the specs of a place that is filled with reordered clauses.
-/

namespace SparqlSelect

open Json

-- ---------------------------------------------------------------------------
-- Lists in another order
-- ---------------------------------------------------------------------------

/-- Two lists have the same members in a different order, but the members of each stream in the
same. -/
structure Reordered {α σ : Type} [DecidableEq σ] (stream? : α → Option σ) (xs ys : List α) :
    Prop where
  perm : xs.Perm ys
  kept : ∀ stream, xs.filter (stream? · = some stream) = ys.filter (stream? · = some stream)

namespace Reordered

variable {α β σ : Type} [DecidableEq σ] {stream? : α → Option σ} {xs ys : List α}

theorem symm (h : Reordered stream? xs ys) : Reordered stream? ys xs :=
  ⟨h.perm.symm, fun stream => (h.kept stream).symm⟩

/-- What comes from the members of one stream only does so in the same order. -/
theorem filterMap_eq {f : α → Option β} (stream : σ) (h : Reordered stream? xs ys)
    (hf : ∀ x ∈ xs, ∀ y, f x = some y → stream? x = some stream) :
    xs.filterMap f = ys.filterMap f := by
  have hAlone {zs : List α} (hz : ∀ z ∈ zs, ∀ y, f z = some y → stream? z = some stream) :
      zs.filterMap f = (zs.filter (stream? · = some stream)).filterMap f := by
    rw [List.filterMap_filter]
    refine List.filterMap_congr fun z hMem => ?_
    cases hGives : f z with
    | none => simp
    | some y => simp [hz z hMem y hGives]
  rw [hAlone hf, hAlone fun y hy => hf y (h.perm.mem_iff.mpr hy), h.kept]

/-- What comes from reordered lists is reordered if it belongs to the streams of where it comes
from. -/
theorem filterMap {f : α → Option β} {stream?' : β → Option σ} (h : Reordered stream? xs ys)
    (hf : ∀ x y, f x = some y → stream? x = stream?' y) :
    Reordered stream?' (xs.filterMap f) (ys.filterMap f) where
  perm := h.perm.filterMap f
  kept stream := by
    rw [List.filter_filterMap, List.filter_filterMap]
    refine h.filterMap_eq stream fun x _ y hy => ?_
    obtain ⟨hGives, hStream⟩ := Option.filter_eq_some_iff.mp hy
    rw [hf x y hGives, of_decide_eq_true hStream]

end Reordered

-- ---------------------------------------------------------------------------
-- Reading clauses
-- ---------------------------------------------------------------------------

/-- The clause that an item stands for, if it stands for one. -/
def Clause.read? (item : Json) : Option Clause := (Clause.read item "").toOption

theorem toOption_bind {α β ε : Type} (x : Except ε α) (f : α → Except ε β) :
    (x >>= f).toOption = x.toOption.bind fun a => (f a).toOption := by
  cases x <;> rfl

theorem toOption_readMeasure (value : Json) (path path' : String) :
    (readMeasure value path).toOption = (readMeasure value path').toOption := by
  unfold readMeasure
  split
  · rfl
  split
  · rfl
  cases value.toDouble with
  | ok x => rfl
  | error f => cases f <;> rfl

/-- The path of an item is of no account for the clause that is read. -/
theorem toOption_readClause (item : Json) (path : String) :
    (Clause.read item path).toOption = Clause.read? item := by
  unfold Clause.read? Clause.read
  cases item with
  | obj members =>
    simp only [toOption_bind]
    refine Option.bind_congr fun name _ => Option.bind_congr fun input _ => ?_
    rw [toOption_readMeasure _ _ ("" ++ ".input.radius")]
  | _ => rfl

/-- Items are read to clauses if each of them stands for one. -/
theorem readClauses_eq_ok_iff {path : String} {items : List Json} {clauses : List Clause} :
    readItems Clause.read path items = .ok clauses ↔
      (∀ item ∈ items, (Clause.read? item).isSome = true) ∧
        clauses = items.filterMap Clause.read? := by
  -- the index is part of a message only, so the list can be read from any index on
  have hIndexed (n : Nat) : List.Forall₂
      (fun x c => Clause.read x.1 (itemPath path x.2) = .ok c) (items.zipIdx n) clauses ↔
      (∀ item ∈ items, (Clause.read? item).isSome = true) ∧
        clauses = items.filterMap Clause.read? := by
    induction items generalizing n clauses with
    | nil => simp
    | cons item rest ih =>
      rw [List.zipIdx_cons, List.forall₂_cons_left_iff, List.forall_mem_cons]
      constructor
      · rintro ⟨c, cs, hFirst, hRest, rfl⟩
        obtain ⟨hSome, rfl⟩ := (ih (n + 1)).mp hRest
        have hRead : Clause.read? item = some c := by
          rw [← toOption_readClause, hFirst]
          rfl
        exact ⟨⟨by rw [hRead]; rfl, hSome⟩, by simp [hRead]⟩
      · rintro ⟨⟨hFirst, hSome⟩, rfl⟩
        obtain ⟨c, hRead⟩ := Option.isSome_iff_exists.mp hFirst
        refine ⟨c, _, ?_, (ih (n + 1)).mpr ⟨hSome, rfl⟩, by simp [hRead]⟩
        rw [← toOption_eq_some_iff, toOption_readClause, hRead]
  exact mapM_eq_ok_iff.trans (hIndexed 0)

/-- Items are read alike if they stand for clauses together, and then for clauses that are
related; their paths are of no account. -/
theorem readClauses_alike {S : List Clause → List Clause → Prop} {path path' : String}
    {items items' : List Json}
    (hBoth : (∀ item ∈ items, (Clause.read? item).isSome = true) ↔
      ∀ item ∈ items', (Clause.read? item).isSome = true)
    (hRelated : S (items.filterMap Clause.read?) (items'.filterMap Clause.read?)) :
    Alike S (readItems Clause.read path items) (readItems Clause.read path' items') := by
  by_cases hSome : ∀ item ∈ items, (Clause.read? item).isSome = true
  · rw [readClauses_eq_ok_iff.mpr ⟨hSome, rfl⟩, readClauses_eq_ok_iff.mpr ⟨hBoth.mp hSome, rfl⟩]
    exact .ok hRelated
  · have hFails {path : String} {items : List Json}
        (hNot : ¬ ∀ item ∈ items, (Clause.read? item).isSome = true) :
        ∃ f, readItems Clause.read path items = .error f := by
      cases hRead : readItems Clause.read path items with
      | error f => exact ⟨f, rfl⟩
      | ok clauses => exact absurd (readClauses_eq_ok_iff.mp hRead).1 hNot
    obtain ⟨f, hf⟩ := hFails hSome
    obtain ⟨g, hg⟩ := hFails (mt hBoth.mpr hSome)
    rw [hf, hg]
    exact .failed f g

/-- Reordered items are both no clauses, or they are read to reordered clauses. -/
theorem readClauses_reordered {σ : Type} [DecidableEq σ] {stream? : Clause → Option σ}
    {path : String} {items items' : List Json}
    (h : Reordered (fun item => (Clause.read? item).bind stream?) items items') :
    Alike (Reordered stream?) (readItems Clause.read path items)
      (readItems Clause.read path items') := by
  refine readClauses_alike ?_ (h.filterMap fun item c hRead => by rw [hRead]; rfl)
  exact forall_congr' fun item => imp_congr_left h.perm.mem_iff

/-- An item more that stands for a clause is read to one clause more. -/
theorem readClauses_insert {path : String} {before after : List Json} {item : Json} {c : Clause}
    (hItem : Clause.read? item = some c) :
    Alike (fun clauses clauses' => ∃ first rest, clauses = first ++ rest ∧
        clauses' = first ++ c :: rest)
      (readItems Clause.read path (before ++ after))
      (readItems Clause.read path (before ++ item :: after)) := by
  refine readClauses_alike ?_ ⟨before.filterMap Clause.read?, after.filterMap Clause.read?, ?_, ?_⟩
  · rw [List.forall_mem_append, List.forall_mem_append, List.forall_mem_cons, hItem]
    simp only [Option.isSome_some, true_and]
  · rw [List.filterMap_append]
  · rw [List.filterMap_append, List.filterMap_cons, hItem]

namespace SpecPlace

variable {p : SpecPlace} {w w' : Json}

/-- The IRI of the spec. -/
def uri (p : SpecPlace) : Json := orElseEmpty ((p.specWith .null).atPath ["uri"]) p.specs.uri

/-- A place that is filled with reordered clauses is read to specs that differ in the order of their
clauses. -/
theorem readSpec_reordered {σ : Type} [DecidableEq σ] {stream? : Clause → Option σ}
    {items items' : List Json} (hItems : clauseItems w = .ok items)
    (hItems' : clauseItems w' = .ok items')
    (h : Reordered (fun item => (Clause.read? item).bind stream?) items items') (path : String) :
    Alike (fun spec spec' => spec.uri = p.uri ∧ spec' = { spec with clauses := spec'.clauses } ∧
        Reordered stream? spec.clauses spec'.clauses)
      (FilterSpec.read p.specs.uri (p.specWith w) path)
      (FilterSpec.read p.specs.uri (p.specWith w') path) := by
  have hUri : p.uri = orElseEmpty (Json.member "uri" (p.spec.members w)) p.specs.uri := by
    rw [p.spec.member_other .null w "uri" (by decide)]
    rfl
  refine (readSpec_clauses (p.spec.member_other w w') ?_ ?_ (fun _ => readClauses_reordered h)
    p.specs.uri path).mono ?_
  · rwa [Field.member_self]
  · rwa [Field.member_self]
  · rintro spec spec' ⟨hClauses, hSpecUri, hSame⟩
    exact ⟨hSpecUri.trans hUri.symm, hSame, hClauses⟩

end SpecPlace

end SparqlSelect
