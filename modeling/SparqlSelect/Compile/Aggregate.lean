import SparqlSelect.Compile.Draft
import SparqlSelect.Fragment.Term
import SparqlSelect.Traced

/-!
# Aggregates

All aggregate calls go into one sub-query. Each key gives a branch with the triple of its observable
and one triple for each variable that is aggregated; the selected items are the calls with their
aliases, each once.

One branch is the pattern itself. Several branches are joined by `UNION` if they aggregate the same
variables; otherwise they stand one after another.

* `aggregation` — the sub-query.
* `SelectQuery.withAggregates` — a query with the sub-query in its pattern and its aliases selected.
-/

namespace SparqlSelect

/-- The sub-query of all aggregates, its aliases, and whether a union was left out. -/
structure Aggregation where
  query : SelectQuery
  aliases : List String
  unionSuppressed : Bool

namespace Aggregation

/-- The distinct pairs of an IRI and a variable in some calls, in order. -/
def bindings (calls : List FunctionCall) : List (String × String) :=
  (calls.map fun c => (c.uri, c.var)).eraseDups

/-- The branch of a key, anchored at the triple of the first call. -/
def branch (key : String) (first : FunctionCall) (calls : List FunctionCall) :
    Except Failure Group := do
  let subject := Json.str (bracketUrl first.subject)
  let draft ← (Draft.start (some key)).triple subject (.str (bracketUrl first.predicate))
    (.str (bracketUrl first.object))
  let draft ← (bindings calls).foldlM
    (fun (d : Draft) (uri, var) => d.also subject (.str (bracketUrl uri)) (.str var)) draft
  .ok draft.group

/-- Adds a call to the selected items, unless its item is selected already. -/
def select (selected : List FunctionCall) (c : FunctionCall) : Except Failure (List FunctionCall) :=
  if selected.any (·.selectItem == c.selectItem) then .ok selected
  else (Kind.checkText Kind.forSelect c.selectItem).map fun _ => selected ++ [c]

/-- The branches of all keys and the calls that are selected. -/
def collect : List (String × List FunctionCall) → List FunctionCall →
    Except Failure (List Group × List FunctionCall)
  | [], selected => .ok ([], selected)
  | (_, []) :: rest, selected => collect rest selected
  | (key, first :: more) :: rest, selected => do
    let group ← branch key first (first :: more)
    let selected ← (first :: more).foldlM select selected
    let (groups, selected) ← collect rest selected
    .ok (group :: groups, selected)

/-- Whether two lists have the same members. -/
def sameMembers (a b : List String) : Bool := a.all b.contains && b.all a.contains

/-- Whether all groups aggregate the same variables. -/
def sameVars (groups : List (String × List FunctionCall)) : Bool :=
  match groups.map fun (_, calls) => calls.map (·.var) with
  | [] => true
  | first :: rest => rest.all (sameMembers first)

/-- The pattern of the branches, and whether a union was left out. -/
def join (unite : Bool) : List Group → Group × Bool
  | [] => (.empty none, false)
  | [only] => (only, false)
  | groups =>
    if unite then (⟨none, [.union (groups.map .group)]⟩, false)
    else (⟨none, groups.map fun g => .nested (.group g)⟩, true)

/-- The sub-query of the branches and of the calls that are selected. -/
def ofBranches (unite : Bool) (branches : List Group) (selected : List FunctionCall) :
    Aggregation :=
  let (body, unionSuppressed) := join unite branches
  { query := { SelectQuery.empty with projection := selected.map (·.selectItem), body }
    aliases := selected.map (·.resultVar)
    unionSuppressed }

end Aggregation

open Aggregation

/-- The sub-query of calls by key, if there is a call. -/
def aggregation (groups : List (String × List FunctionCall)) : Traced (Option Aggregation) := do
  let groups := groups.filter fun (_, calls) => !calls.isEmpty
  if groups.isEmpty then return none
  let (branches, selected) ← collect groups []
  let a := ofBranches (sameVars groups) branches selected
  if a.unionSuppressed then
    Traced.log .warning ("Aggregate branches bind different variable sets; " ++
      "emitting them sequentially instead of as a UNION")
  return some a

/-- A query with a sub-query of aggregates at the end of its pattern and its aliases selected. -/
def SelectQuery.extend (q : SelectQuery) (a : Aggregation) : SelectQuery :=
  a.aliases.foldl SelectQuery.project (q.add (.nested (.select a.query)))

/-- A query with the sub-query of calls by key, if there is a call. -/
def SelectQuery.withAggregates (q : SelectQuery) (groups : List (String × List FunctionCall)) :
    Traced (SelectQuery × Option Aggregation) := do
  match ← aggregation groups with
  | none => return (q, none)
  | some a =>
    Traced.log .debug ("Added aggregate subquery with " ++ toString a.aliases.length ++ " aliases")
    return (q.extend a, some a)

end SparqlSelect
