import SparqlSelect.Proofs.Fragment.Kinds
import SparqlSelect.Proofs.Traced.Success

/-!
# Computations that answer

A request may be wrong in two ways that are reported to whoever made it: a field that is needed is
missing, or a fragment is not of a kind that is allowed where it should go. Any other failure would
be one of the compiler itself. A computation answers if it gives a value or one of the two reports;
what is known of the value is carried along, so that the next step can rely on it.

One failure of the compiler itself can be met: a bracket that stands inside too many others. When it
can is a parameter of what it means to answer. With `False` for it, there are just the two reports.

* `Failure.IsReported` — the two ways.
* `Answers` — a value, a report, or a bracket that is too deep.
* `Answers.bind`, `Answers.foldlM`, `Answers.mapM` — sequences and loops.
* `Traced.Answers` — the same of the outcome of a traced computation.
-/

namespace SparqlSelect

/-- A failure that says what is wrong with a request. -/
inductive Failure.IsReported : Failure → Prop
  | missingField (path : String) (absence : Absence) : IsReported (.missingField path absence)
  | rejected (fragment : Json) (allowed : List Kind) : IsReported (.rejected fragment allowed)

/-- A value with a property, a failure that is reported or, only if something is too deep, the fault
of a bracket that is. -/
inductive Answers {α : Type} (deep : Prop) (I : α → Prop) : Except Failure α → Prop
  | ok {a : α} : I a → Answers deep I (.ok a)
  | error {f : Failure} : f.IsReported → Answers deep I (.error f)
  | tooDeep : deep → Answers deep I (.error (.fault .tooDeep))

/-- The same of the outcome of a traced computation. -/
def Traced.Answers {α : Type} (deep : Prop) (I : α → Prop) (x : Traced α) : Prop :=
  SparqlSelect.Answers deep I x.outcome

section

variable {α β : Type} {deep : Prop} {I : α → Prop} {J : β → Prop}

namespace Answers

variable {x : Except Failure α}

/-- Less may be said of the value. -/
theorem mono {I' : α → Prop} (hI : ∀ a, I a → I' a) (h : Answers deep I x) : Answers deep I' x := by
  cases h with
  | ok ha => exact .ok (hI _ ha)
  | error hf => exact .error hf
  | tooDeep hDeep => exact .tooDeep hDeep

/-- A computation that has a value. -/
theorem of_exists (h : ∃ a, x = .ok a ∧ I a) : Answers deep I x := by
  obtain ⟨a, rfl, ha⟩ := h
  exact .ok ha

/-- What is known of a value that was found. -/
theorem of_eq_ok {a : α} (h : Answers deep I x) (hx : x = .ok a) : I a := by
  cases h with
  | ok ha => exact Except.ok.inj hx ▸ ha
  | error _ => cases hx
  | tooDeep _ => cases hx

/-- Two steps in a row answer if each does, the second for every value that the first may have. -/
theorem bind {f : α → Except Failure β} (h : Answers deep I x)
    (hf : ∀ a, I a → Answers deep J (f a)) : Answers deep J (x >>= f) := by
  cases h with
  | ok ha => exact hf _ ha
  | error hReported => exact .error hReported
  | tooDeep hDeep => exact .tooDeep hDeep

/-- A value may be made into another one. -/
theorem map {f : α → β} (h : Answers deep I x) (hf : ∀ a, I a → J (f a)) :
    Answers deep J (x.map f) := by
  cases h with
  | ok ha => exact .ok (hf _ ha)
  | error hReported => exact .error hReported
  | tooDeep hDeep => exact .tooDeep hDeep

/-- A loop whose steps report and keep an invariant. -/
theorem foldlM {step : β → α → Except Failure β} {xs : List α} {b : β} (hb : J b)
    (hStep : ∀ a ∈ xs, ∀ b, J b → Answers deep J (step b a)) :
    Answers deep J (xs.foldlM step b) := by
  induction xs generalizing b with
  | nil => exact .ok hb
  | cons a rest ih =>
    rw [List.foldlM_cons]
    refine (hStep a List.mem_cons_self b hb).bind fun c hc => ?_
    exact ih hc fun a ha => hStep a (List.mem_cons_of_mem _ ha)

/-- A list whose members are computed one by one. -/
theorem mapM {f : α → Except Failure β} {xs : List α} (h : ∀ a ∈ xs, Answers deep J (f a)) :
    Answers deep (fun ys => ∀ b ∈ ys, J b) (xs.mapM f) := by
  induction xs with
  | nil => exact .ok (by simp)
  | cons a rest ih =>
    rw [List.mapM_cons]
    refine (h a List.mem_cons_self).bind fun b hb => ?_
    refine (ih fun a ha => h a (List.mem_cons_of_mem _ ha)).bind fun bs hbs => ?_
    exact .ok (List.forall_mem_cons.mpr ⟨hb, hbs⟩)

/-- A check passes a text, or what it rejects is reported. -/
theorem check (allowed : List Kind) (fragment : Json) :
    Answers deep (fun _ => True) (Kind.check allowed fragment) := by
  unfold Kind.check
  split
  · split
    · exact .ok trivial
    · exact .error (.rejected _ _)
  · exact .error (.rejected _ _)

/-- A condition passes or is rejected, unless it is too deep. -/
theorem checkWithin {limit : Nat} {allowed : List Kind} {e : String}
    (h : Kind.acceptsAnyWithin limit allowed e = .error .tooDeep → deep) :
    Answers deep (fun _ => True) (Kind.checkWithin limit allowed (.str e)) := by
  unfold Kind.checkWithin
  dsimp only
  split
  · exact .ok trivial
  · exact .error (.rejected _ _)
  · rename_i fault hFault
    obtain hOk | ⟨hError, -⟩ := Kind.acceptsAnyWithin_cases limit allowed e
    · cases hFault.symm.trans hOk
    · cases hFault.symm.trans hError
      exact .tooDeep (h hError)

/-- The check of a text passes it or rejects it. -/
theorem checkText (allowed : List Kind) (fragment : String) :
    Answers deep (fun _ => True) (Kind.checkText allowed fragment) := check allowed (.str fragment)

end Answers

namespace Traced.Answers

variable {x : Traced α}

/-- A value is an answer. -/
theorem pure {a : α} (h : I a) : Answers deep I (pure a) := .ok h

/-- A computation without notes answers as it does by itself. -/
theorem lift {x : Except Failure α} (h : SparqlSelect.Answers deep I x) :
    Answers deep I (liftM x : Traced α) := h

/-- Less may be said of the value. -/
theorem mono {I' : α → Prop} (hI : ∀ a, I a → I' a) (h : Answers deep I x) : Answers deep I' x :=
  SparqlSelect.Answers.mono hI h

/-- A computation that has a value. -/
theorem of_exists (h : ∃ a, x.outcome = .ok a ∧ I a) : Answers deep I x :=
  SparqlSelect.Answers.of_exists h

/-- Two steps in a row, the second for every value that the first may have. -/
theorem bind {f : α → Traced β} (h : Answers deep I x) (hf : ∀ a, I a → Answers deep J (f a)) :
    Answers deep J (x >>= f) := by
  unfold Traced.Answers
  rw [outcome_bind]
  exact SparqlSelect.Answers.bind h hf

/-- A value that is found, and what comes of it. -/
theorem raise {x : Except Fault α} {a : α} {f : α → Traced β} (hx : x = .ok a)
    (hf : Answers deep J (f a)) : Answers deep J ((liftM (Fault.raise x) : Traced α) >>= f) := by
  rw [hx]
  exact hf

/-- A step that only leaves notes. -/
theorem noted {x : Traced Unit} {f : Unit → Traced β} (hx : x.outcome = .ok ())
    (hf : Answers deep J (f ())) : Answers deep J (x >>= f) :=
  bind (I := fun _ => True) (of_exists ⟨(), hx, trivial⟩) fun _ _ => hf

/-- A loop whose steps answer and keep an invariant. -/
theorem foldlM {step : β → α → Traced β} {xs : List α} {b : β} (hb : J b)
    (hStep : ∀ a ∈ xs, ∀ b, J b → Answers deep J (step b a)) :
    Answers deep J (xs.foldlM step b) := by
  unfold Traced.Answers
  rw [outcome_foldlM]
  exact SparqlSelect.Answers.foldlM hb hStep

/-- A list whose items all answer. -/
theorem mapM {f : α → Traced β} {xs : List α} (h : ∀ a ∈ xs, Answers deep J (f a)) :
    Answers deep (fun ys => ∀ b ∈ ys, J b) (xs.mapM f) := by
  unfold Traced.Answers
  rw [outcome_mapM]
  exact SparqlSelect.Answers.mapM h

end Traced.Answers

end

end SparqlSelect
