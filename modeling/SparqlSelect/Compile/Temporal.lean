import SparqlSelect.Compile.Draft
import SparqlSelect.Fragment.Term
import SparqlSelect.Query.Groups
import SparqlSelect.Query.Text
import SparqlSelect.Traced

/-!
# Temporal functions

A temporal function is computed in place: a binding is put into the first group that was built for
the key of the call, next to what binds its variable, and its alias is selected.

* `bindingPlace` — where the binding goes.
* `SelectQuery.inject` — one call.
* `Injection.run` — several calls; a call that fails leaves what the calls before it did.
-/

namespace SparqlSelect

/-- Where a binding goes in a group. -/
inductive Place where
  | after (position : Nat)
  | atEnd
deriving DecidableEq, Repr

/-- Whether an element is optional and its body mentions a variable. -/
def Element.isOptionalWith (var : String) : Element → Bool
  | .optional body => body.variables.contains var
  | _ => false

/-- Whether an element is a triple with a predicate and an object. -/
def Element.isTripleWith (predicate object : String) : Element → Bool
  | .triple t => t.predicate == predicate && t.object == object
  | _ => false

/-- Where the binding of a call goes: after the first optional element that mentions its variable,
else after the first triple with its predicate and variable, else at the end of a group that
mentions the variable anywhere. -/
def bindingPlace (g : Group) (c : FunctionCall) : Option Place :=
  match g.elements.findIdx? (·.isOptionalWith c.var) with
  | some i => some (.after i)
  | none =>
    match g.elements.findIdx? (·.isTripleWith (bracketUrl c.uri) c.var) with
    | some i => some (.after i)
    | none => if g.variables.contains c.var then some .atEnd else none

/-- A group with a binding at its place. -/
def Group.putBinding (g : Group) (place : Place) (b : Binding) : Group :=
  match place with
  | .after i => g.insertAfter i (.bind b)
  | .atEnd => g.add (.bind b)

/-- Lets a place pass if the element to insert after is in the group. -/
def Group.checkPlace (g : Group) : Place → Except Failure Unit
  | .after i => if i < g.elements.length then .ok () else .error .foreignAnchor
  | .atEnd => .ok ()

/-- A query with the binding of a call and its alias, and whether the call was injected. A binding
of the same variable that is there already will do. -/
def SelectQuery.inject (q : SelectQuery) (c : FunctionCall) : Traced (SelectQuery × Bool) :=
  match q.body.ofOrigin? (some c.key) with
  | none => do
    Traced.log .warning ("No graph pattern built for key " ++ c.key ++ "; skipping " ++ c.resultVar)
    return (q, false)
  | some g =>
    if g.binds.any (·.var == c.resultVar) then return (q.project c.resultVar, true)
    else match bindingPlace g c with
    | none => do
      Traced.log .warning
        (c.var ++ " is not bound for key " ++ c.key ++ "; skipping " ++ c.resultVar)
      return (q, false)
    | some place => do
      let b ← checkBinding (.str c.text) (.str c.resultVar)
      g.checkPlace place
      let body := q.body.updateOrigin (some c.key) (·.putBinding place b)
      Traced.log .debug ("Injected " ++ b.text ++ " for key " ++ c.key)
      return ({ q with body }.project c.resultVar, true)

/-- A query and the aliases of the calls that were and were not injected. -/
structure Injection where
  query : SelectQuery
  injected : List String
  skipped : List String

namespace Injection

/-- Where a query stands before any call. -/
def start (q : SelectQuery) : Injection := ⟨q, [], []⟩

/-- What one call comes to. -/
def next (i : Injection) (c : FunctionCall) (q : SelectQuery) (done : Bool) : Injection :=
  if done then { i with query := q, injected := i.injected ++ [c.resultVar] }
  else { i with query := q, skipped := i.skipped ++ [c.resultVar] }

/-- Injects calls in order up to the first that fails: how far that came, and the notes and the
failure, if any, of the whole. -/
def run : List FunctionCall → Injection → Injection × Traced Unit
  | [], i => (i, pure ())
  | c :: rest, i =>
    match i.query.inject c with
    | ⟨notes, .error f⟩ => (i, ⟨notes, .error f⟩)
    | ⟨notes, .ok (q, done)⟩ =>
      let (last, others) := run rest (i.next c q done)
      (last, ⟨notes ++ others.notes, others.outcome⟩)

end Injection

/-- A query with all calls injected. -/
def SelectQuery.withTemporals (q : SelectQuery) (calls : List FunctionCall) : Traced Injection := do
  let (last, trace) := Injection.run calls (.start q)
  trace
  return last

end SparqlSelect
