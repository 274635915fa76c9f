import SparqlSelect.Failure
import SparqlSelect.Function.Call

/-!
# Traced computations

While a request is compiled, notes are left: messages for a log, variables to select, functions to
compute. A traced computation is its notes in order together with its outcome; a failure ends it and
keeps the notes left before. No step reads the notes of another, so what a step notes depends on its
arguments alone.
-/

namespace SparqlSelect

/-- How important a message is. -/
inductive Level where
  | debug
  | info
  | warning
deriving DecidableEq, Repr

/-- What a step of the compilation leaves behind. -/
inductive Note where
  | log (level : Level) (message : String)
  | selected (var : String)
  | requested (call : FunctionCall)
deriving DecidableEq, Repr

/-- Notes and an outcome. -/
structure Traced (α : Type) where
  notes : List Note
  outcome : Except Failure α

namespace Traced

variable {α β : Type}

/-- A value without notes. -/
protected def pure (a : α) : Traced α := ⟨[], .ok a⟩

/-- One computation and then another that uses its value. -/
protected def bind (x : Traced α) (f : α → Traced β) : Traced β :=
  match x.outcome with
  | .ok a => ⟨x.notes ++ (f a).notes, (f a).outcome⟩
  | .error e => ⟨x.notes, .error e⟩

instance : Monad Traced where
  pure := Traced.pure
  bind := Traced.bind

instance : LawfulMonad Traced := LawfulMonad.mk' _
  (fun ⟨notes, outcome⟩ => by
    cases outcome <;> simp [Functor.map, Traced.bind, Traced.pure])
  (fun a f => by simp [pure, bind, Traced.bind, Traced.pure])
  (fun ⟨notes, outcome⟩ f g => by
    cases outcome with
    | error e => simp [bind, Traced.bind]
    | ok a =>
      simp only [bind, Traced.bind]
      cases (f a).outcome <;> simp [List.append_assoc])

/-- A computation that leaves no notes. -/
def ofExcept (outcome : Except Failure α) : Traced α := ⟨[], outcome⟩

instance : MonadLift (Except Failure) Traced := ⟨ofExcept⟩

/-- A computation that only fails. -/
def fail (f : Failure) : Traced α := ⟨[], .error f⟩

/-- Leaves one note. -/
def note (n : Note) : Traced Unit := ⟨[n], .ok ()⟩

/-- Leaves a message. -/
def log (level : Level) (message : String) : Traced Unit := note (.log level message)

/-- The messages among the notes. -/
def messages (notes : List Note) : List (Level × String) :=
  notes.filterMap fun | .log level message => some (level, message) | _ => none

/-- The variables to select, each at its first place. -/
def selectedVars (notes : List Note) : List String :=
  (notes.filterMap fun | .selected v => some v | _ => none).eraseDups

/-- The functions of a category that were asked for. -/
def calls (category : FunctionCategory) (notes : List Note) : List FunctionCall :=
  notes.filterMap fun
    | .requested c => if c.category = category then some c else none
    | _ => none

@[simp] theorem notes_pure (a : α) : (pure a : Traced α).notes = [] := rfl

@[simp] theorem outcome_pure (a : α) : (pure a : Traced α).outcome = .ok a := rfl

/-- What a sequence of two computations comes to when the first succeeds. -/
theorem bind_of_ok {x : Traced α} {a : α} (h : x.outcome = .ok a) (f : α → Traced β) :
    x >>= f = ⟨x.notes ++ (f a).notes, (f a).outcome⟩ := by
  simp [bind, Traced.bind, h]

/-- What a sequence of two computations comes to when the first fails. -/
theorem bind_of_error {x : Traced α} {e : Failure} (h : x.outcome = .error e)
    (f : α → Traced β) : x >>= f = ⟨x.notes, .error e⟩ := by
  simp [bind, Traced.bind, h]

/-- A sequence of two computations succeeds exactly if both do. -/
theorem outcome_bind_eq_ok_iff {x : Traced α} {f : α → Traced β} {b : β} :
    (x >>= f).outcome = .ok b ↔ ∃ a, x.outcome = .ok a ∧ (f a).outcome = .ok b := by
  cases h : x.outcome with
  | error e => simp [bind_of_error h]
  | ok a => simp [bind_of_ok h]

end Traced

end SparqlSelect
