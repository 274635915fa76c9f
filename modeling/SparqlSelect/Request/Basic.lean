import SparqlSelect.Json.Display
import SparqlSelect.Unicode.Case

/-!
# Requests

A request lists observables, triples that are to be found, and filters on what they mention. The
filters of an observable are looked up by its key, one of its own three terms.

Values that are only looked at when a query is built are kept as they came.
-/

namespace SparqlSelect

/-- One filter on the variable of a spec. -/
structure Clause where
  /-- The name of the filter; a clause without one was never chosen. -/
  name : Json
  value : Json
  /-- The comparison of a range filter. -/
  comparison : String
  /-- The middle of a circle. -/
  center : Json
  radius : Option Binary64
  /-- The corners of an area. -/
  points : List Json
  /-- How the clause is combined with others. -/
  combination : String

namespace Clause

/-- Whether the clause was chosen. -/
def isSelected (c : Clause) : Bool := c.name.isSet

/-- Whether the clause is an alternative to others instead of a further condition. -/
def isUnion (c : Clause) : Bool := upperCase c.combination == "UNION"

end Clause

/-- The filters on one predicate of an observable, and the variable for its object. -/
structure FilterSpec where
  uri : Json
  var : Option Json
  isOptional : Bool
  isSelectable : Bool
  datatype : Option Json
  clauses : List Clause

/-- A slot of a triple. -/
inductive Slot where
  | subject
  | predicate
  | object
deriving DecidableEq, Repr

/-- A triple to be found, with modifiers of its own. -/
structure Observable where
  subject : String
  predicate : String
  object : String
  limit : Option Int
  sortKey : Option String
  sortDirection : Json

namespace Observable

/-- The slot that holds the key: the subject if it is among the keys, else the object if it is, else
the predicate. -/
def keySlot (o : Observable) (keys : List String) : Slot :=
  if keys.contains o.subject then .subject
  else if keys.contains o.object then .object
  else .predicate

/-- The key by which the filters are looked up. -/
def key (o : Observable) (keys : List String) : String :=
  match o.keySlot keys with
  | .subject => o.subject
  | .predicate => o.predicate
  | .object => o.object

end Observable

/-- The triple that says what a sensor is, for a search by place. -/
structure SensorPattern where
  subject : String
  predicate : String
  object : String
  /-- The slot of the sensor. -/
  slot : Slot

/-- The term of the sensor. -/
def SensorPattern.sensor (p : SensorPattern) : String :=
  match p.slot with
  | .subject => p.subject
  | .predicate => p.predicate
  | .object => p.object

/-- How all solutions are sorted. -/
structure SortSpec where
  expression : String
  direction : String
deriving DecidableEq, Repr

/-- Whether there is anything to sort by; `!none` says that there is not. -/
def SortSpec.isEnabled (s : SortSpec) : Bool := s.expression != "" && s.expression != "!none"

/-- A request. -/
structure Request where
  observables : List Observable
  keys : List String
  filters : List (String × List FilterSpec)
  sort : Option SortSpec
  limit : Option Int
  sensorPattern : Json

namespace Request

/-- The specs of a key. -/
def specsOf (r : Request) (key : String) : List FilterSpec := (r.filters.lookup key).getD []

/-- Whether the first entry of the filters has a spec, which asks for a search by place when there
are no observables. -/
def hasLocationFilters (r : Request) : Bool :=
  match r.filters with
  | (_, _ :: _) :: _ => true
  | _ => false

end Request

end SparqlSelect
