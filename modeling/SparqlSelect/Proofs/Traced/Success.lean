import Mathlib.Data.List.Forall2
import SparqlSelect.Json.Convert
import SparqlSelect.Traced

/-!
# Successful computations

What a computation that succeeded has gone through. A sequence succeeds if its parts do, so success
is taken apart step by step; a loop that succeeds keeps whatever each of its steps keeps.

The outcome of a traced computation does not depend on its notes: `Traced.outcome` turns a sequence
of traced computations into the sequence of their outcomes, and every fact about `Except` carries
over.

* `bind_eq_ok_iff`, `map_eq_ok_iff`, `raise_eq_ok_iff` — sequences, images and faults, and
  `bind_eq_error_iff`, `map_eq_error_iff`, `raise_eq_error_iff`, where they fail.
* `foldlM_keeps`, `foldlM_along`, `Traced.foldlM_each` — the invariant of a loop, by itself or along
  what was gone through.
* `exists_foldlM`, `foldlM_again` — loops that succeed, and an item that a loop goes through twice.
* `mapM_eq_ok_iff`, `mapM_eq_error_iff` — a list that is computed item by item.
* `Traced.outcome_bind`, `Traced.outcome_foldlM`, `Traced.outcome_mapM` — outcomes of sequences.
-/

namespace SparqlSelect

section Except

variable {ε α β : Type}

/-- Two steps in a row succeed exactly if both do. -/
theorem bind_eq_ok_iff {x : Except ε α} {f : α → Except ε β} {b : β} :
    x >>= f = .ok b ↔ ∃ a, x = .ok a ∧ f a = .ok b := by
  cases x with
  | error e => simp [bind, Except.bind]
  | ok a => simp [bind, Except.bind]

/-- A result that is mapped comes from a result. -/
theorem map_eq_ok_iff {x : Except ε α} {f : α → β} {b : β} :
    x.map f = .ok b ↔ ∃ a, x = .ok a ∧ f a = b := by
  cases x with
  | error e => simp [Except.map]
  | ok a => simp [Except.map]

/-- The value of a result, if it has one. -/
theorem toOption_eq_some_iff {x : Except ε α} {a : α} : x.toOption = some a ↔ x = .ok a := by
  cases x <;> simp [Except.toOption]

/-- What is known to succeed has a value. -/
theorem join_toOption_eq_some_iff {x : Except ε (Option α)} {a : α} :
    x.toOption.join = some a ↔ x = .ok (some a) := by
  rw [Option.join_eq_some_iff, toOption_eq_some_iff]

/-- A result that is no failure has a value. -/
theorem exists_of_isOk {x : Except ε α} (h : x.isOk = true) : ∃ a, x = .ok a := by
  cases x with
  | error e => cases h
  | ok a => exact ⟨a, rfl⟩

/-- A fault that is raised is still a fault, and a value is still that value. -/
theorem raise_eq_ok_iff {r : Except Fault α} {a : α} : Fault.raise r = .ok a ↔ r = .ok a := by
  cases r with
  | error e => simp [Fault.raise, Except.mapError]
  | ok b => simp [Fault.raise, Except.mapError]

/-- A sequence fails where its first part does, or after that. -/
theorem bind_eq_error_iff {x : Except ε α} {f : α → Except ε β} {e : ε} :
    x >>= f = .error e ↔ x = .error e ∨ ∃ a, x = .ok a ∧ f a = .error e := by
  cases x with
  | error e => simp [bind, Except.bind]
  | ok a => simp [bind, Except.bind]

/-- Mapping a result leaves its failure as it is. -/
theorem map_eq_error_iff {x : Except ε α} {f : α → β} {e : ε} :
    x.map f = .error e ↔ x = .error e := by
  cases x with
  | error e => simp [Except.map]
  | ok a => simp [Except.map]

/-- A fault that is raised is the failure of that fault. -/
theorem raise_eq_error_iff {r : Except Fault α} {f : Failure} :
    Fault.raise r = .error f ↔ ∃ fault, r = .error fault ∧ f = .fault fault := by
  cases r with
  | error fault => simp [Fault.raise, Except.mapError, eq_comm]
  | ok a => simp [Fault.raise, Except.mapError]

/-- How a sequence goes on matters only for the value that its first part has. -/
theorem bind_congr_of_ok {x : Except ε α} {f g : α → Except ε β}
    (h : ∀ a, x = .ok a → f a = g a) : x >>= f = x >>= g := by
  cases x with
  | error e => rfl
  | ok a => exact h a rfl

/-- A step that has its value. -/
theorem ok_bind (a : α) (f : α → Except ε β) : (Except.ok a >>= f) = f a := rfl

/-- A value that raises no fault is passed on. -/
theorem raise_ok_bind (a : α) (f : α → Except Failure β) : (Fault.raise (.ok a) >>= f) = f a := rfl

/-- What each step of a loop keeps holds at its end. -/
theorem foldlM_keeps {I : β → Prop} {step : β → α → Except ε β} {xs : List α} {b b' : β}
    (hStep : ∀ a ∈ xs, ∀ b b', I b → step b a = .ok b' → I b') (hI : I b)
    (h : xs.foldlM step b = .ok b') : I b' := by
  induction xs generalizing b with
  | nil =>
    rw [List.foldlM_nil] at h
    cases h
    exact hI
  | cons a xs ih =>
    rw [List.foldlM_cons, bind_eq_ok_iff] at h
    obtain ⟨c, hc, h⟩ := h
    exact ih (fun a ha => hStep a (List.mem_cons_of_mem _ ha))
      (hStep a List.mem_cons_self b c hI hc) h

/-- What each step of a loop keeps true of the items gone through holds of all items at its end. -/
theorem foldlM_along {I : List α → β → Prop} {step : β → α → Except ε β} {xs : List α} {b b' : β}
    (hStep : ∀ done, ∀ a ∈ xs, ∀ b b', I done b → step b a = .ok b' → I (done ++ [a]) b')
    (hI : I [] b) (h : xs.foldlM step b = .ok b') : I xs b' := by
  suffices hAll : ∀ rest done b, (∀ a ∈ rest, a ∈ xs) → I done b → rest.foldlM step b = .ok b' →
      I (done ++ rest) b' from hAll xs [] b (fun _ ha => ha) hI h
  intro rest
  induction rest with
  | nil =>
    intro done b _ hDone hRest
    rw [List.foldlM_nil] at hRest
    cases hRest
    rwa [List.append_nil]
  | cons a rest ih =>
    intro done b hMem hDone hRest
    rw [List.foldlM_cons, bind_eq_ok_iff] at hRest
    obtain ⟨c, hc, hRest⟩ := hRest
    have hNext := hStep done a (hMem a List.mem_cons_self) b c hDone hc
    have hLast := ih (done ++ [a]) c (fun x hx => hMem x (List.mem_cons_of_mem _ hx)) hNext hRest
    rwa [List.append_assoc, List.singleton_append] at hLast

/-- A loop whose steps always succeed succeeds. -/
theorem exists_foldlM {step : β → α → Except ε β} {xs : List α}
    (hStep : ∀ a ∈ xs, ∀ b, ∃ b', step b a = .ok b') (b : β) : ∃ b', xs.foldlM step b = .ok b' := by
  induction xs generalizing b with
  | nil => exact ⟨b, rfl⟩
  | cons a xs ih =>
    obtain ⟨next, hNext⟩ := hStep a List.mem_cons_self b
    obtain ⟨b', hRest⟩ := ih (fun a ha => hStep a (List.mem_cons_of_mem _ ha)) next
    exact ⟨b', by rw [List.foldlM_cons]; exact bind_eq_ok_iff.mpr ⟨next, hNext, hRest⟩⟩

/-- An item may be gone through a second time if the first time settles it, the items between leave
it settled, and nothing changes for what is settled. -/
theorem foldlM_again {I : β → Prop} {step : β → α → Except ε β} {a : α} {between : List α}
    (hFirst : ∀ b b', step b a = .ok b' → I b')
    (hBetween : ∀ d ∈ between, ∀ b b', I b → step b d = .ok b' → I b')
    (hAgain : ∀ b, I b → step b a = .ok b) (before after : List α) (b : β) :
    (before ++ a :: (between ++ a :: after)).foldlM step b =
      (before ++ a :: (between ++ after)).foldlM step b := by
  rw [List.foldlM_append, List.foldlM_append]
  refine congrArg _ (funext fun b => ?_)
  rw [List.foldlM_cons, List.foldlM_cons]
  cases hOnce : step b a with
  | error e => rfl
  | ok next =>
    rw [ok_bind, ok_bind, List.foldlM_append, List.foldlM_append]
    cases hRest : between.foldlM step next with
    | error e => rfl
    | ok last =>
      have hSettled : I last := foldlM_keeps hBetween (hFirst b next hOnce) hRest
      rw [ok_bind, ok_bind, List.foldlM_cons, hAgain last hSettled, ok_bind]

/-- A list is computed item by item. -/
theorem mapM_eq_ok_iff {f : α → Except ε β} {xs : List α} {ys : List β} :
    xs.mapM f = .ok ys ↔ List.Forall₂ (fun x y => f x = .ok y) xs ys := by
  induction xs generalizing ys with
  | nil =>
    rw [List.mapM_nil, List.forall₂_nil_left_iff]
    exact ⟨fun h => by cases h; rfl, fun h => by rw [h]; rfl⟩
  | cons x xs ih =>
    rw [List.mapM_cons, bind_eq_ok_iff, List.forall₂_cons_left_iff]
    constructor
    · rintro ⟨y, hy, h⟩
      obtain ⟨ys', hys, h⟩ := bind_eq_ok_iff.mp h
      cases h
      exact ⟨y, ys', hy, ih.mp hys, rfl⟩
    · rintro ⟨y, ys', hy, hys, rfl⟩
      exact ⟨y, hy, bind_eq_ok_iff.mpr ⟨ys', ih.mpr hys, rfl⟩⟩

/-- A list is not computed because of the first of its items that is not. -/
theorem mapM_eq_error_iff {f : α → Except ε β} {xs : List α} {e : ε} :
    xs.mapM f = .error e ↔ ∃ before x after, xs = before ++ x :: after ∧
      (∀ y ∈ before, ∃ z, f y = .ok z) ∧ f x = .error e := by
  induction xs with
  | nil =>
    rw [List.mapM_nil]
    constructor
    · nofun
    · rintro ⟨before, x, after, hSplit, -⟩
      cases before <;> cases hSplit
  | cons x xs ih =>
    rw [List.mapM_cons, bind_eq_error_iff]
    constructor
    · rintro (hFirst | ⟨z, hz, hLater⟩)
      · exact ⟨[], x, xs, rfl, List.forall_mem_nil _, hFirst⟩
      · rcases bind_eq_error_iff.mp hLater with hRest | ⟨zs, -, hDone⟩
        · obtain ⟨before, y, after, rfl, hBefore, hy⟩ := ih.mp hRest
          exact ⟨x :: before, y, after, rfl, List.forall_mem_cons.mpr ⟨⟨z, hz⟩, hBefore⟩, hy⟩
        · cases hDone
    · rintro ⟨before, y, after, hSplit, hBefore, hy⟩
      cases before with
      | nil =>
        cases hSplit
        exact .inl hy
      | cons b before =>
        cases hSplit
        obtain ⟨⟨z, hz⟩, hRest⟩ := List.forall_mem_cons.mp hBefore
        exact .inr ⟨z, hz, bind_eq_error_iff.mpr (.inl (ih.mpr ⟨before, y, after, rfl, hRest, hy⟩))⟩

/-- The members of the first of two lists that are related member by member. -/
theorem exists_of_forall₂_left {R : α → β → Prop} {xs : List α} {ys : List β}
    (h : List.Forall₂ R xs ys) {x : α} (hx : x ∈ xs) : ∃ y ∈ ys, R x y := by
  induction h with
  | nil => cases hx
  | @cons z y zs ys hHead _ ih =>
    rcases List.mem_cons.mp hx with rfl | hRest
    · exact ⟨y, List.mem_cons_self, hHead⟩
    · obtain ⟨w, hw, hR⟩ := ih hRest
      exact ⟨w, List.mem_cons_of_mem _ hw, hR⟩

/-- The members of the second of two lists that are related member by member. -/
theorem exists_of_forall₂_right {R : α → β → Prop} {xs : List α} {ys : List β}
    (h : List.Forall₂ R xs ys) {y : β} (hy : y ∈ ys) : ∃ x ∈ xs, R x y := by
  induction h with
  | nil => cases hy
  | @cons x z xs zs hHead _ ih =>
    rcases List.mem_cons.mp hy with rfl | hRest
    · exact ⟨x, List.mem_cons_self, hHead⟩
    · obtain ⟨w, hw, hR⟩ := ih hRest
      exact ⟨w, List.mem_cons_of_mem _ hw, hR⟩

/-- Members that each have something related to them have a list of it. -/
theorem exists_forall₂ {R : α → β → Prop} {xs : List α} (h : ∀ x ∈ xs, ∃ y, R x y) :
    ∃ ys, List.Forall₂ R xs ys := by
  induction xs with
  | nil => exact ⟨[], .nil⟩
  | cons x xs ih =>
    obtain ⟨y, hy⟩ := h x List.mem_cons_self
    obtain ⟨ys, hys⟩ := ih fun x hx => h x (List.mem_cons_of_mem _ hx)
    exact ⟨y :: ys, .cons hy hys⟩

end Except

namespace Traced

variable {α β : Type}

/-- A value that a computation without notes gave is the whole of it. -/
theorem liftM_raise_eq_pure {r : Except Fault α} {a : α} (h : r = .ok a) :
    (liftM (Fault.raise r) : Traced α) = pure a := by
  rw [h]
  rfl

@[simp] theorem outcome_bind (x : Traced α) (f : α → Traced β) :
    (x >>= f).outcome = x.outcome >>= fun a => (f a).outcome := by
  cases h : x.outcome with
  | error e => rw [bind_of_error h]; rfl
  | ok a => rw [bind_of_ok h]; rfl

@[simp] theorem outcome_lift (x : Except Failure α) : (liftM x : Traced α).outcome = x := rfl

@[simp] theorem outcome_log (level : Level) (message : String) :
    (log level message).outcome = .ok () := rfl

/-- The outcome of a loop is the loop over the outcomes of its steps. -/
theorem outcome_foldlM (step : β → α → Traced β) (xs : List α) (b : β) :
    (xs.foldlM step b).outcome = xs.foldlM (fun b a => (step b a).outcome) b := by
  induction xs generalizing b with
  | nil => rfl
  | cons a xs ih =>
    rw [List.foldlM_cons, outcome_bind, List.foldlM_cons]
    exact congrArg _ (funext ih)

/-- The outcomes of the items of a list are the outcome of the list. -/
theorem outcome_mapM (f : α → Traced β) (xs : List α) :
    (xs.mapM f).outcome = xs.mapM fun a => (f a).outcome := by
  induction xs with
  | nil => rfl
  | cons a xs ih =>
    rw [List.mapM_cons, outcome_bind, List.mapM_cons]
    refine congrArg _ (funext fun b => ?_)
    rw [outcome_bind, ih]
    rfl

/-- What each step of a traced loop keeps holds at its end. -/
theorem foldlM_keeps {I : β → Prop} {step : β → α → Traced β} {xs : List α} {b b' : β}
    (hStep : ∀ a ∈ xs, ∀ b b', I b → (step b a).outcome = .ok b' → I b') (hI : I b)
    (h : (xs.foldlM step b).outcome = .ok b') : I b' := by
  rw [outcome_foldlM] at h
  exact SparqlSelect.foldlM_keeps hStep hI h

/-- What each step of a traced loop keeps true of the items gone through holds of all items at its
end. -/
theorem foldlM_along {I : List α → β → Prop} {step : β → α → Traced β} {xs : List α} {b b' : β}
    (hStep : ∀ done, ∀ a ∈ xs, ∀ b b', I done b → (step b a).outcome = .ok b' →
      I (done ++ [a]) b')
    (hI : I [] b) (h : (xs.foldlM step b).outcome = .ok b') : I xs b' := by
  rw [outcome_foldlM] at h
  exact SparqlSelect.foldlM_along hStep hI h

/-- A step that changes nothing may be left out of a loop. -/
theorem outcome_foldlM_insert {step : β → α → Traced β} {a : α}
    (h : ∀ b, (step b a).outcome = .ok b) (before after : List α) (b : β) :
    ((before ++ a :: after).foldlM step b).outcome = ((before ++ after).foldlM step b).outcome := by
  rw [List.foldlM_append, List.foldlM_append, outcome_bind, outcome_bind]
  refine congrArg _ (funext fun done => ?_)
  rw [List.foldlM_cons, outcome_bind, h]
  rfl

/-- What each successful step of a traced loop says of its item holds of all items at its end. -/
theorem foldlM_each {P : α → Prop} {step : β → α → Traced β} {xs : List α} {b b' : β}
    (hStep : ∀ a ∈ xs, ∀ b b', (step b a).outcome = .ok b' → P a)
    (h : (xs.foldlM step b).outcome = .ok b') : ∀ a ∈ xs, P a := by
  refine foldlM_along (I := fun done _ => ∀ a ∈ done, P a) ?_ (List.forall_mem_nil P) h
  intro done a hMem b b' hDone hItem
  rw [List.forall_mem_append, List.forall_mem_singleton]
  exact ⟨hDone, hStep a hMem b b' hItem⟩

end Traced

end SparqlSelect
