import SparqlSelect.Proofs.Traced.Success

/-!
# Computations side by side

Two computations are alike if they leave the same notes and either both fail or both succeed with
values that are related. Why they fail does not matter: a message may quote what the two runs do not
share.

Sequences and loops of computations that are alike are alike, so two runs of the same program on
related arguments are compared step by step.

* `Alike.bind`, `Alike.foldlM`, `Alike.mapM` — outcomes.
* `alike_eq_iff` — outcomes that are alike in their values being equal.
* `Traced.Alike.bind`, `Traced.Alike.foldlM`, `Traced.Alike.mapM` — traced computations.
-/

namespace SparqlSelect

/-- Both outcomes are failures, or both are values that a relation connects. -/
inductive Alike {α β : Type} (R : α → β → Prop) : Except Failure α → Except Failure β → Prop
  | failed (f g : Failure) : Alike R (.error f) (.error g)
  | ok {a : α} {b : β} : R a b → Alike R (.ok a) (.ok b)

/-- The same notes, and outcomes that are alike. -/
structure Traced.Alike {α β : Type} (R : α → β → Prop) (x : Traced α) (y : Traced β) : Prop where
  notes : x.notes = y.notes
  outcome : SparqlSelect.Alike R x.outcome y.outcome

section

variable {α β γ δ σ τ : Type} {R : α → β → Prop} {S : γ → δ → Prop}

namespace Alike

variable {x : Except Failure α} {y : Except Failure β}

/-- Less may be said of how the values are related. -/
theorem mono {R' : α → β → Prop} (hR : ∀ a b, R a b → R' a b) (h : Alike R x y) : Alike R' x y := by
  cases h with
  | failed f g => exact .failed f g
  | ok hab => exact .ok (hR _ _ hab)

/-- A computation is alike to itself. -/
theorem refl {R : α → α → Prop} (hR : ∀ a, R a a) (x : Except Failure α) : Alike R x x := by
  cases x with
  | error f => exact .failed f f
  | ok a => exact .ok (hR a)

/-- Two steps in a row, the second for all values that are related. -/
theorem bind {f : α → Except Failure γ} {g : β → Except Failure δ} (h : Alike R x y)
    (hfg : ∀ a b, R a b → Alike S (f a) (g b)) : Alike S (x >>= f) (y >>= g) := by
  cases h with
  | failed f g => exact .failed f g
  | ok hab => exact hfg _ _ hab

/-- A step that both runs take with the same result. -/
theorem same (x : Except Failure α) {f : α → Except Failure γ} {g : α → Except Failure δ}
    (hfg : ∀ a, x = .ok a → Alike S (f a) (g a)) : Alike S (x >>= f) (x >>= g) := by
  cases x with
  | error e => exact .failed e e
  | ok a => exact hfg a rfl

/-- What is known of the values may be remembered together with where they come from. -/
theorem withOutcomes (h : Alike R x y) : Alike (fun a b => R a b ∧ x = .ok a ∧ y = .ok b) x y := by
  cases h with
  | failed f g => exact .failed f g
  | ok hab => exact .ok ⟨hab, rfl, rfl⟩

/-- Values that are related may be made into others that are. -/
theorem map {f : α → γ} {g : β → δ} (h : Alike R x y) (hfg : ∀ a b, R a b → S (f a) (g b)) :
    Alike S (x.map f) (y.map g) := by
  cases h with
  | failed f g => exact .failed f g
  | ok hab => exact .ok (hfg _ _ hab)

/-- Loops over related items are alike if their steps are. -/
theorem foldlM {P : α → β → Prop} {xs : List α} {ys : List β} {f : γ → α → Except Failure γ}
    {g : δ → β → Except Failure δ} {c : γ} {d : δ} (hxs : List.Forall₂ P xs ys) (hcd : S c d)
    (hStep : ∀ a b, P a b → ∀ c d, S c d → Alike S (f c a) (g d b)) :
    Alike S (xs.foldlM f c) (ys.foldlM g d) := by
  induction hxs generalizing c d with
  | nil => exact .ok hcd
  | cons hab _ ih =>
    rw [List.foldlM_cons, List.foldlM_cons]
    exact (hStep _ _ hab c d hcd).bind fun c d hcd => ih hcd

/-- Lists of related items are alike item by item. -/
theorem mapM {P : α → β → Prop} {xs : List α} {ys : List β} {f : α → Except Failure γ}
    {g : β → Except Failure δ} (hxs : List.Forall₂ P xs ys)
    (hStep : ∀ a b, P a b → Alike S (f a) (g b)) :
    Alike (List.Forall₂ S) (xs.mapM f) (ys.mapM g) := by
  induction hxs with
  | nil => exact .ok .nil
  | cons hab _ ih =>
    rw [List.mapM_cons, List.mapM_cons]
    refine (hStep _ _ hab).bind fun c d hcd => ?_
    exact ih.bind fun cs ds hRest => .ok (.cons hcd hRest)

end Alike

/-- Outcomes are alike in that they are equal if they have the same values. -/
theorem alike_eq_iff {x y : Except Failure α} :
    Alike Eq x y ↔ ∀ a, x = .ok a ↔ y = .ok a := by
  constructor
  · rintro (⟨f, g⟩ | rfl) a
    · exact ⟨nofun, nofun⟩
    · exact .rfl
  · intro h
    cases x with
    | ok a => rw [(h a).mp rfl]; exact .ok rfl
    | error f =>
      cases y with
      | ok a => cases (h a).mpr rfl
      | error g => exact .failed f g

/-- Outcomes are alike in what a function tells of their values. -/
theorem alike_of_map_eq {f : α → γ} {x y : Except Failure α} (h : x.map f = y.map f) :
    Alike (fun a b => f a = f b) x y := by
  cases x with
  | error e =>
    cases y with
    | error e' => exact .failed e e'
    | ok b => cases h
  | ok a =>
    cases y with
    | error e => cases h
    | ok b => exact .ok (Except.ok.inj h)

namespace Traced.Alike

variable {x : Traced α} {y : Traced β}

theorem refl {R : α → α → Prop} (hR : ∀ a, R a a) (x : Traced α) : Alike R x x :=
  ⟨rfl, .refl hR _⟩

theorem pure {a : α} {b : β} (h : R a b) : Alike R (pure a) (pure b) := ⟨rfl, .ok h⟩

/-- Computations without notes are as alike as they are by themselves. -/
theorem lift {x : Except Failure α} {y : Except Failure β} (h : SparqlSelect.Alike R x y) :
    Alike R (liftM x : Traced α) (liftM y : Traced β) := ⟨rfl, h⟩

/-- Two steps in a row, the second for all values that are related. -/
theorem bind {f : α → Traced γ} {g : β → Traced δ} (h : Alike R x y)
    (hfg : ∀ a b, R a b → Alike S (f a) (g b)) : Alike S (x >>= f) (y >>= g) := by
  obtain ⟨hNotes, hOutcome⟩ := h
  generalize hx : x.outcome = u at hOutcome
  generalize hy : y.outcome = v at hOutcome
  cases hOutcome with
  | failed e e' =>
    rw [bind_of_error hx, bind_of_error hy]
    exact ⟨hNotes, .failed e e'⟩
  | ok hab =>
    obtain ⟨hNext, hOutcome⟩ := hfg _ _ hab
    rw [bind_of_ok hx, bind_of_ok hy, hNotes, hNext]
    exact ⟨rfl, hOutcome⟩

/-- A step that both runs take with the same result. -/
theorem same (x : Traced α) {f : α → Traced γ} {g : α → Traced δ}
    (hfg : ∀ a, x.outcome = .ok a → Alike S (f a) (g a)) : Alike S (x >>= f) (x >>= g) := by
  cases hx : x.outcome with
  | error e =>
    rw [bind_of_error hx, bind_of_error hx]
    exact ⟨rfl, .failed e e⟩
  | ok a =>
    obtain ⟨hNotes, hOutcome⟩ := hfg a hx
    rw [bind_of_ok hx, bind_of_ok hx, hNotes]
    exact ⟨rfl, hOutcome⟩

/-- Loops over related items are alike if their steps are. -/
theorem foldlM {P : α → β → Prop} {xs : List α} {ys : List β} {f : γ → α → Traced γ}
    {g : δ → β → Traced δ} {c : γ} {d : δ} (hxs : List.Forall₂ P xs ys) (hcd : S c d)
    (hStep : ∀ a b, P a b → ∀ c d, S c d → Alike S (f c a) (g d b)) :
    Alike S (xs.foldlM f c) (ys.foldlM g d) := by
  induction hxs generalizing c d with
  | nil => exact .pure hcd
  | cons hab _ ih =>
    rw [List.foldlM_cons, List.foldlM_cons]
    exact (hStep _ _ hab c d hcd).bind fun c d hcd => ih hcd

/-- Lists of related items are alike item by item. -/
theorem mapM {P : α → β → Prop} {xs : List α} {ys : List β} {f : α → Traced γ}
    {g : β → Traced δ} (hxs : List.Forall₂ P xs ys)
    (hStep : ∀ a b, P a b → Alike S (f a) (g b)) :
    Alike (List.Forall₂ S) (xs.mapM f) (ys.mapM g) := by
  induction hxs with
  | nil => exact .pure .nil
  | cons hab _ ih =>
    rw [List.mapM_cons, List.mapM_cons]
    refine (hStep _ _ hab).bind fun c d hcd => ?_
    exact ih.bind fun cs ds hRest => .pure (.cons hcd hRest)

end Traced.Alike

end

end SparqlSelect
