import SparqlSelect.Compile.Aggregate
import SparqlSelect.Compile.Location
import SparqlSelect.Compile.Temporal
import SparqlSelect.Query.Text

/-!
# From a request to a query

The patterns of the observables become the pattern of the query: a single one without modifiers as
it is, a single one with modifiers as a sub-query, several as a union. Variables that were noted on
the way are selected first, then the aliases of the aggregates, then those of the temporal
functions.

* `Settings.build` — the query of a request.
* `Settings.compile` — its text.
-/

namespace SparqlSelect

/-- A computation together with the notes that it left. -/
def Traced.withNotes {α : Type} (x : Traced α) : Traced (α × List Note) :=
  ⟨x.notes, x.outcome.map fun a => (a, x.notes)⟩

/-- The pattern of the query of one or more observables. -/
def assemble : List Subgraph → Group
  | [only] => if only.modifiers.isEmpty then only.group else ⟨none, [.nested only.asBranch]⟩
  | subgraphs => ⟨none, [.union (subgraphs.map Subgraph.asBranch)]⟩

/-- What all solutions are sorted by, with the direction. -/
def Request.sort? (r : Request) : Option (String × Json) :=
  match r.sort with
  | some sort => if sort.isEnabled then some (sort.expression, .str sort.direction) else none
  | none => none

/-- The modifiers of all solutions. -/
def Request.modifiers (r : Request) : Except Failure (List Modifier) := modifiersOf r.sort? r.limit

/-- The variables that a query selects outside of calls and nothing in it declares; `aliases` are
those of the aggregates. -/
def SelectQuery.undeclared (q : SelectQuery) (aliases : List String) : List String :=
  let declared := q.body.variables ++ aliases
  let items := q.projection.filter fun item => !Kind.acceptsAny [.assignment] item
  (items.flatMap variablesIn).filter fun v => !declared.contains v

/-- Leaves a message on every variable that a query selects and nothing declares. -/
def SelectQuery.checkProjection (q : SelectQuery) (aliases : List String) : Traced Unit where
  notes := (q.undeclared aliases).map fun v =>
    .log .warning ("Projected variable " ++ v ++ " is not bound in any pattern")
  outcome := .ok ()

/-- The aggregates that some notes ask for, by key. -/
def aggregateGroups (notes : List Note) : List (String × List FunctionCall) :=
  FunctionCall.grouped (Traced.calls .aggregate notes)

/-- The temporal functions that some notes ask for, in the order in which they are injected. -/
def temporalCalls (notes : List Note) : List FunctionCall :=
  (FunctionCall.grouped (Traced.calls .temporal notes)).flatMap (·.2)

/-- The query of some patterns before anything is added to them. -/
def Settings.assembledQuery (s : Settings) (subgraphs : List Subgraph) (notes : List Note)
    (modifiers : List Modifier) : SelectQuery where
  prefixes := s.prefixes
  projection := Traced.selectedVars notes
  body := assemble subgraphs
  modifiers := modifiers
  distinct := false

/-- The query of the observables of a request, from their patterns and the notes left for them. -/
def Settings.observableQuery (s : Settings) (r : Request) (subgraphs : List Subgraph)
    (notes : List Note) : Traced SelectQuery := do
  let _ ← (Traced.selectedVars notes).mapM fun v =>
    (Kind.checkText Kind.forSelect v : Except Failure String)
  let modifiers ← r.modifiers
  let query := s.assembledQuery subgraphs notes modifiers
  let (query, aggregates) ← query.withAggregates (aggregateGroups notes)
  let done ← query.withTemporals (temporalCalls notes)
  let aliases := (aggregates.map (·.aliases)).getD []
  done.query.checkProjection aliases
  Traced.log .info ("Compiled " ++ toString subgraphs.length ++ " subgraphs, " ++
    toString done.query.projection.length ++ " projected, " ++ toString aliases.length ++
    " aggregates, " ++ toString done.injected.length ++ " temporal binds")
  return done.query

/-- The query of a request. -/
def Settings.buildRequest (s : Settings) (r : Request) : Traced SelectQuery := do
  let (subgraphs, notes) ← (r.observables.mapM (s.subgraph r)).withNotes
  if !subgraphs.isEmpty then s.observableQuery r subgraphs notes
  else if r.hasLocationFilters then s.locationQuery r
  else Traced.fail (.missing "observables")

/-- The query of a request that has not been read. -/
def Settings.build (s : Settings) (payload : Json) : Traced SelectQuery := do
  let r ← Request.read payload
  s.buildRequest r

/-- The text of the query of a request. -/
def Settings.compile (s : Settings) (payload : Json) : Except Failure String := do
  let q ← (s.build payload).outcome
  Fault.raise q.text

end SparqlSelect
