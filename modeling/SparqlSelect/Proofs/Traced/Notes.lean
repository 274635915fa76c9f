import SparqlSelect.Proofs.Traced.Success

/-!
# The notes of a computation

A computation leaves the notes of its parts in order, whether it succeeds or not. So a property of
all notes is checked part by part, where the part that leaves them is at hand.

* `Leaves` — every note of a computation has a property, with a rule for each way to build one.
* `mem_selectedVars_iff`, `mem_calls_iff` — the variables and the functions among some notes.
-/

namespace SparqlSelect.Traced

variable {α β : Type} {N : Note → Prop}

/-- Every note that a computation leaves has a property. -/
def Leaves (N : Note → Prop) (x : Traced α) : Prop := ∀ n ∈ x.notes, N n

/-- More notes may be allowed. -/
theorem Leaves.mono {N' : Note → Prop} {x : Traced α} (hN : ∀ n, N n → N' n) (h : x.Leaves N) :
    x.Leaves N' := fun n hn => hN n (h n hn)

theorem leaves_pure {a : α} : Leaves N (pure a : Traced α) := fun _ hn => by cases hn

theorem leaves_lift {x : Except Failure α} : Leaves N (liftM x : Traced α) :=
  fun _ hn => by cases hn

/-- A note that is allowed may be left. -/
theorem leaves_note {n : Note} (h : N n) : Leaves N (note n) :=
  fun _ hn => List.mem_singleton.mp hn ▸ h

/-- Two steps leave what each of them leaves, the second after whatever the first has found. -/
theorem Leaves.bind {x : Traced α} {f : α → Traced β} (hx : x.Leaves N)
    (hf : ∀ a, x.outcome = .ok a → (f a).Leaves N) : (x >>= f).Leaves N := by
  intro n hn
  cases hOutcome : x.outcome with
  | error e =>
    rw [bind_of_error hOutcome] at hn
    exact hx n hn
  | ok a =>
    rw [bind_of_ok hOutcome] at hn
    exact (List.mem_append.mp hn).elim (hx n) (hf a hOutcome n)

/-- A loop leaves what its steps leave. -/
theorem leaves_foldlM {step : β → α → Traced β} {xs : List α} {b : β}
    (hStep : ∀ b, ∀ a ∈ xs, (step b a).Leaves N) : (xs.foldlM step b).Leaves N := by
  induction xs generalizing b with
  | nil => exact leaves_pure
  | cons a xs ih =>
    rw [List.foldlM_cons]
    exact (hStep b a List.mem_cons_self).bind fun c _ =>
      ih fun b x hx => hStep b x (List.mem_cons_of_mem _ hx)

/-- A list leaves what its items leave. -/
theorem leaves_mapM {f : α → Traced β} {xs : List α} (hEach : ∀ a ∈ xs, (f a).Leaves N) :
    (xs.mapM f).Leaves N := by
  induction xs with
  | nil => exact leaves_pure
  | cons a xs ih =>
    rw [List.mapM_cons]
    refine (hEach a List.mem_cons_self).bind fun b _ => ?_
    exact (ih fun x hx => hEach x (List.mem_cons_of_mem _ hx)).bind fun _ _ => leaves_pure

/-- So does a list that is gone through for its notes only. -/
theorem leaves_forM {f : α → Traced PUnit} {xs : List α} (hEach : ∀ a ∈ xs, (f a).Leaves N) :
    (xs.forM f).Leaves N := by
  induction xs with
  | nil => exact leaves_pure
  | cons a xs ih =>
    exact (hEach a List.mem_cons_self).bind fun _ _ =>
      ih fun x hx => hEach x (List.mem_cons_of_mem _ hx)

/-- The variables to select are those that were noted. -/
theorem mem_selectedVars_iff {v : String} {notes : List Note} :
    v ∈ selectedVars notes ↔ .selected v ∈ notes := by
  rw [selectedVars, List.mem_eraseDups, List.mem_filterMap]
  constructor
  · rintro ⟨n, hn, hv⟩
    cases n with
    | selected w =>
      cases hv
      exact hn
    | _ => cases hv
  · exact fun h => ⟨_, h, rfl⟩

/-- The functions of a category that are asked for are those of the category that were noted. -/
theorem mem_calls_iff {category : FunctionCategory} {c : FunctionCall} {notes : List Note} :
    c ∈ calls category notes ↔ .requested c ∈ notes ∧ c.category = category := by
  rw [calls, List.mem_filterMap]
  constructor
  · rintro ⟨n, hn, hc⟩
    cases n with
    | requested d =>
      dsimp only at hc
      split at hc
      · rename_i hCategory
        cases hc
        exact ⟨hn, hCategory⟩
      · cases hc
    | _ => cases hc
  · rintro ⟨hn, hCategory⟩
    exact ⟨_, hn, by simp [hCategory]⟩

end SparqlSelect.Traced
