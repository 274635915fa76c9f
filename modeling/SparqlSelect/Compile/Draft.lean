import SparqlSelect.Failure
import SparqlSelect.Json.Convert
import SparqlSelect.Query.Basic

/-!
# Drafts of groups

A draft is a group that is being written. Fragments come into a group only through a draft, and each
step checks them for their place first; a step that fails leaves the draft as it was. The last
triple written by `Draft.triple` gives the subject for triples that leave theirs out.
-/

namespace SparqlSelect

/-- A triple whose terms are of the kinds that are allowed in its slots. -/
def checkTriple (subject predicate object : Json) : Except Failure Triple := do
  let subject ← Kind.check Kind.forSubject subject
  let predicate ← Kind.check Kind.forPredicate predicate
  let object ← Kind.check Kind.forObject object
  .ok { subject, predicate, object }

/-- A binding of a function to a variable. -/
def checkBinding (expression var : Json) : Except Failure Binding := do
  let expression ← Kind.check Kind.forBind expression
  let var ← Kind.check [.var] var
  .ok { expression, var }

/-- A sort key as a variable, a mark being added where there is none. -/
def sortVar (expression : String) : String :=
  let s := trim expression
  if s.startsWith "?" || s.startsWith "$" then s else "?" ++ s

/-- A modifier that sorts by a key, which has to be a variable. -/
def sortModifier (expression : String) (direction : Json) : Except Failure Modifier := do
  let s ← Kind.checkText [.var] (sortVar expression)
  .ok (.orderBy [(s, Direction.of direction)])

/-- The modifier for a sort key with its direction, if there is one. -/
def sortModifiers : Option (String × Json) → Except Failure (List Modifier)
  | some (key, direction) => (sortModifier key direction).map ([·])
  | none => .ok []

/-- The modifiers for a sort key with its direction and for a limit, as far as they are given. -/
def modifiersOf (sort : Option (String × Json)) (limit : Option Int) :
    Except Failure (List Modifier) := do
  let order ← sortModifiers sort
  .ok (order ++ (limit.map fun n => Modifier.limit (.int n)).toList)

/-- A group that is being written, and the subject that further triples may leave out. -/
structure Draft where
  group : Group
  subject : Option String

namespace Draft

/-- A draft without elements. -/
def start (origin : Option String) : Draft := ⟨.empty origin, none⟩

/-- The draft with one more element. -/
def add (d : Draft) (e : Element) : Draft := { d with group := d.group.add e }

/-- Writes a triple and keeps its subject for those that follow. -/
def triple (d : Draft) (subject predicate object : Json) : Except Failure Draft := do
  let t ← checkTriple subject predicate object
  .ok { d.add (.triple t) with subject := some t.subject }

/-- Writes a triple with a subject of its own, or else with the one that was kept. -/
def also (d : Draft) (subject predicate object : Json) : Except Failure Draft :=
  match (if subject.isSet then some subject else d.subject.map .str) with
  | none => .error .noSubject
  | some subject => do
    let t ← checkTriple subject predicate object
    .ok (d.add (.triple t))

/-- Writes a triple that need not hold. -/
def optional (d : Draft) (subject predicate object : Json) : Except Failure Draft := do
  let t ← checkTriple subject predicate object
  .ok (d.add (.optional ⟨none, [.triple t]⟩))

/-- Writes a condition, whose brackets may stand inside at most `limit` others. -/
def filter (d : Draft) (limit : Nat) (expression : Json) : Except Failure Draft := do
  let e ← Kind.checkWithin limit Kind.forFilter expression
  .ok (d.add (.filter e))

/-- Writes alternatives, if there are any. -/
def union (d : Draft) (branches : List Branch) : Draft :=
  if branches.isEmpty then d else d.add (.union branches)

/-- Writes a group inside the group. -/
def nest (d : Draft) (g : Group) : Draft := d.add (.nested (.group g))

/-- Writes a binding. -/
def bind (d : Draft) (expression var : Json) : Except Failure Draft := do
  let b ← checkBinding expression var
  .ok (d.add (.bind b))

end Draft

end SparqlSelect
