import SparqlSelect.Proofs.Traced.Answers

/-!
# Computations that follow another

One computation follows another if it answers whenever the other has a value, with a value that is
related to that one. This is how two runs are compared when only the first is known to succeed: the
second may still be told what is wrong with it, but it meets no failure of the compiler itself.

* `Follows.bind`, `Follows.foldlM`, `Follows.mapM` — sequences and loops.
* `Traced.Follows` — the same of the outcomes of traced computations.
-/

namespace SparqlSelect

/-- If the first computation has a value, the second answers, with a related value. -/
def Follows {α β : Type} (R : α → β → Prop) (x : Except Failure α) (y : Except Failure β) : Prop :=
  ∀ a, x = .ok a → Answers False (R a) y

/-- The same of the outcomes of traced computations, whatever notes they leave. -/
def Traced.Follows {α β : Type} (R : α → β → Prop) (x : Traced α) (y : Traced β) : Prop :=
  SparqlSelect.Follows R x.outcome y.outcome

section

variable {α β γ δ : Type} {R : α → β → Prop} {S : γ → δ → Prop}

namespace Follows

variable {x : Except Failure α} {y : Except Failure β}

/-- A value follows a value that it is related to. -/
theorem ok {a : α} {b : β} (h : R a b) : Follows R (.ok a) (.ok b) := by
  rintro _ ⟨⟩
  exact .ok h

theorem refl {R : α → α → Prop} (hR : ∀ a, R a a) (x : Except Failure α) : Follows R x x := by
  rintro a rfl
  exact .ok (hR a)

/-- What answers by itself follows anything. -/
theorem of_answers {J : β → Prop} (h : Answers False J y) : Follows (fun _ b => J b) x y :=
  fun _ _ => h

/-- Two steps in a row, the second for all values that are related. -/
theorem bind {f : α → Except Failure γ} {g : β → Except Failure δ} (h : Follows R x y)
    (hfg : ∀ a b, R a b → Follows S (f a) (g b)) : Follows S (x >>= f) (y >>= g) := by
  intro c hc
  obtain ⟨a, ha, hfa⟩ := bind_eq_ok_iff.mp hc
  exact (h a ha).bind fun b hab => hfg a b hab c hfa

/-- Values that are related may be made into others that are. -/
theorem map {f : α → γ} {g : β → δ} (h : Follows R x y) (hfg : ∀ a b, R a b → S (f a) (g b)) :
    Follows S (x.map f) (y.map g) := by
  intro c hc
  obtain ⟨a, ha, rfl⟩ := map_eq_ok_iff.mp hc
  exact (h a ha).map (hfg a)

/-- A step that both runs take with the same result. -/
theorem same (x : Except Failure α) {f : α → Except Failure γ} {g : α → Except Failure δ}
    (hfg : ∀ a, x = .ok a → Follows S (f a) (g a)) : Follows S (x >>= f) (x >>= g) := by
  intro c hc
  obtain ⟨a, rfl, hfa⟩ := bind_eq_ok_iff.mp hc
  exact hfg a rfl c hfa

/-- Loops over related items follow each other if their steps do. -/
theorem foldlM {P : α → β → Prop} {xs : List α} {ys : List β} {f : γ → α → Except Failure γ}
    {g : δ → β → Except Failure δ} {c : γ} {d : δ} (hxs : List.Forall₂ P xs ys) (hcd : S c d)
    (hStep : ∀ a b, P a b → ∀ c d, S c d → Follows S (f c a) (g d b)) :
    Follows S (xs.foldlM f c) (ys.foldlM g d) := by
  induction hxs generalizing c d with
  | nil => exact .ok hcd
  | cons hab _ ih =>
    rw [List.foldlM_cons, List.foldlM_cons]
    exact (hStep _ _ hab c d hcd).bind fun c d hcd => ih hcd

/-- Lists of related items follow each other item by item. -/
theorem mapM {P : α → β → Prop} {xs : List α} {ys : List β} {f : α → Except Failure γ}
    {g : β → Except Failure δ} (hxs : List.Forall₂ P xs ys)
    (hStep : ∀ a b, P a b → Follows S (f a) (g b)) :
    Follows (List.Forall₂ S) (xs.mapM f) (ys.mapM g) := by
  induction hxs with
  | nil => exact .ok .nil
  | cons hab _ ih =>
    rw [List.mapM_cons, List.mapM_cons]
    refine (hStep _ _ hab).bind fun c d hcd => ?_
    exact ih.bind fun cs ds hRest => .ok (.cons hcd hRest)

end Follows

namespace Traced.Follows

variable {x : Traced α} {y : Traced β}

theorem pure {a : α} {b : β} (h : R a b) : Follows R (pure a) (pure b) := .ok h

theorem refl {R : α → α → Prop} (hR : ∀ a, R a a) (x : Traced α) : Follows R x x :=
  SparqlSelect.Follows.refl hR x.outcome

/-- What answers by itself follows anything. -/
theorem of_answers {J : β → Prop} (h : Traced.Answers False J y) : Follows (fun _ b => J b) x y :=
  SparqlSelect.Follows.of_answers h

/-- Two steps in a row, the second for all values that are related. -/
theorem bind {f : α → Traced γ} {g : β → Traced δ} (h : Follows R x y)
    (hfg : ∀ a b, R a b → Follows S (f a) (g b)) : Follows S (x >>= f) (y >>= g) := by
  unfold Follows
  rw [outcome_bind, outcome_bind]
  exact SparqlSelect.Follows.bind h hfg

/-- Computations without notes follow each other as they do by themselves. -/
theorem lift {x : Except Failure α} {y : Except Failure β} (h : SparqlSelect.Follows R x y) :
    Follows R (liftM x : Traced α) (liftM y : Traced β) := h

/-- A step that both runs take with the same result. -/
theorem same (x : Traced α) {f : α → Traced γ} {g : α → Traced δ}
    (hfg : ∀ a, x.outcome = .ok a → Follows S (f a) (g a)) : Follows S (x >>= f) (x >>= g) := by
  unfold Follows
  rw [outcome_bind, outcome_bind]
  exact SparqlSelect.Follows.same x.outcome hfg

/-- Loops over related items follow each other if their steps do. -/
theorem foldlM {P : α → β → Prop} {xs : List α} {ys : List β} {f : γ → α → Traced γ}
    {g : δ → β → Traced δ} {c : γ} {d : δ} (hxs : List.Forall₂ P xs ys) (hcd : S c d)
    (hStep : ∀ a b, P a b → ∀ c d, S c d → Follows S (f c a) (g d b)) :
    Follows S (xs.foldlM f c) (ys.foldlM g d) := by
  unfold Follows
  rw [outcome_foldlM, outcome_foldlM]
  exact SparqlSelect.Follows.foldlM hxs hcd hStep

/-- Lists of related items follow each other item by item. -/
theorem mapM {P : α → β → Prop} {xs : List α} {ys : List β} {f : α → Traced γ}
    {g : β → Traced δ} (hxs : List.Forall₂ P xs ys)
    (hStep : ∀ a b, P a b → Follows S (f a) (g b)) :
    Follows (List.Forall₂ S) (xs.mapM f) (ys.mapM g) := by
  unfold Follows
  rw [outcome_mapM, outcome_mapM]
  exact SparqlSelect.Follows.mapM hxs hStep

end Traced.Follows

end

end SparqlSelect
