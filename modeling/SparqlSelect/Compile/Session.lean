import SparqlSelect.Compile.Draft

/-!
# Sessions

A draft may be written from outside, step by step, and whoever writes it may go on after a step that
failed. What counts then is the draft that the failed step left. So in a session the draft is a
state: a step checks and writes in its order, and where it fails the state stays as it is at that
moment. The limit to brackets inside brackets of a condition is the same for all steps.

* `DraftStep.perform` — one step.
* `Draft.session` — the draft after some steps, those that fail among them.
* `Draft.accepted` — the steps that do not fail.
-/

namespace SparqlSelect

/-- A step of a session, with its arguments as they came. -/
inductive DraftStep where
  | triple (subject predicate object : Json)
  | also (subject predicate object : Json)
  | optional (subject predicate object : Json)
  | filter (expression : Json)
  | union (branches : List Branch)
  | nest (g : Group)
  | bind (expression var : Json)

/-- A computation that changes a draft in place. A failure ends it and undoes nothing. -/
abbrev Drafting := ExceptT Failure (StateM Draft)

namespace Drafting

/-- Writes an element. -/
def add (e : Element) : Drafting Unit := modify (·.add e)

/-- Keeps a subject for the triples that leave theirs out. -/
def keep (subject : String) : Drafting Unit := modify fun d => { d with subject := some subject }

/-- The subject of a triple that may leave its own out. -/
def subjectFor (subject : Json) : Drafting Json := do
  if subject.isSet then return subject
  match (← get).subject with
  | some kept => return .str kept
  | none => throw .noSubject

end Drafting

/-- Performs a step on the draft. -/
def DraftStep.perform (limit : Nat) : DraftStep → Drafting Unit
  | .triple subject predicate object => do
    let t ← checkTriple subject predicate object
    Drafting.add (.triple t)
    Drafting.keep t.subject
  | .also subject predicate object => do
    let subject ← Drafting.subjectFor subject
    let t ← checkTriple subject predicate object
    Drafting.add (.triple t)
  | .optional subject predicate object => do
    let t ← checkTriple subject predicate object
    Drafting.add (.optional ⟨none, [.triple t]⟩)
  | .filter expression => do
    let e ← Kind.checkWithin limit Kind.forFilter expression
    Drafting.add (.filter e)
  | .union branches => do
    if !branches.isEmpty then Drafting.add (.union branches)
  | .nest g => Drafting.add (.nested (.group g))
  | .bind expression var => do
    let b ← checkBinding expression var
    Drafting.add (.bind b)

namespace Draft

/-- What a step comes to, and the draft that it leaves. -/
def attempt (limit : Nat) (d : Draft) (step : DraftStep) : Except Failure Unit × Draft :=
  (step.perform limit).run.run d

/-- The draft after some steps; the session goes on after a step that failed. -/
def session (limit : Nat) (d : Draft) (steps : List DraftStep) : Draft :=
  steps.foldl (fun d step => (d.attempt limit step).2) d

/-- The steps that do not fail, each tried on the draft that those before it left. -/
def accepted (limit : Nat) (d : Draft) : List DraftStep → List DraftStep
  | [] => []
  | step :: rest =>
    let (outcome, next) := d.attempt limit step
    if outcome.isOk then step :: next.accepted limit rest else next.accepted limit rest

end Draft

end SparqlSelect
