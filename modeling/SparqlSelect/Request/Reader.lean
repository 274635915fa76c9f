import SparqlSelect.Json.Convert
import SparqlSelect.Request.Basic

/-!
# Reading a request

A request is a JSON object of a loose shape. It is read once, in a fixed order, and the first field
that is missing or of the wrong shape is reported with its path.

* Specs of a key may be a list, or an object whose names are the IRIs of the specs.
* Clauses of a spec may be a list, or an object whose names are of no account.
* A datatype may be an object that holds it as its `value`.
-/

namespace SparqlSelect

/-- The path of a member. -/
def memberPath (path name : String) : String := if path == "" then name else path ++ "." ++ name

/-- The path of an item. -/
def itemPath (path : String) (i : Nat) : String := path ++ "[" ++ toString i ++ "]"

/-- A member that has to be there. -/
def required (value : Json) (name path : String) : Except Failure Json :=
  match value with
  | .obj members =>
    match Json.member name members with
    | .null => .error (.missing (memberPath path name))
    | found => .ok found
  | _ => .error (.missing (memberPath path name))

/-- A value that stands in for one that does not count as given. -/
def orElseEmpty (value empty : Json) : Json := if value.isSet then value else empty

/-- Reads each item of a list with its path. -/
def readItems {α : Type} (read : Json → String → Except Failure α) (path : String)
    (items : List Json) : Except Failure (List α) :=
  items.zipIdx.mapM fun (item, i) => read item (itemPath path i)

/-- A limit: a non-negative integer, or nothing. -/
def readLimit (value : Json) (path : String) : Except Failure (Option Int) :=
  if value.isMissing then .ok none
  else match value.toInteger with
    | .ok n => if n < 0 then .error (.invalidField path value .count) else .ok (some n)
    | .error .tooLarge => .error (.fault .tooLarge)
    | .error _ => .error (.invalidField path value .count)

/-- A measure: a number, or nothing; a truth value is no number here. -/
def readMeasure (value : Json) (path : String) : Except Failure (Option Binary64) :=
  if value.isMissing then .ok none
  else if value matches .bool _ then .error (.invalidField path value .number)
  else match value.toDouble with
    | .ok x => .ok (some x)
    | .error .tooLarge => .error (.fault .tooLarge)
    | .error _ => .error (.invalidField path value .number)

/-- A clause. -/
def Clause.read (value : Json) (path : String) : Except Failure Clause :=
  match value with
  | .obj members => do
    let selected := orElseEmpty (Json.member "selectedFilter" members) (.obj [])
    let input := orElseEmpty (Json.member "input" members) (.obj [])
    let name ← Fault.raise (selected.get "text")
    let input ← Fault.raise input.toMembers
    let radius ← readMeasure (Json.member "radius" input) (path ++ ".input.radius")
    let points ← Fault.raise (orElseEmpty (Json.member "latLngs" input) (.arr [])).toItems
    .ok {
      name
      value := Json.member "value" input
      comparison := (Json.member "expression" input).displayIfSet
      center := Json.member "center" input
      radius
      points
      combination := (orElseEmpty (Json.member "operator" members) (.str "AND")).display }
  | _ => .error (.missingField path .clauseNotObject)

/-- The clauses of a spec, without names. -/
def clauseItems (value : Json) : Except Fault (List Json) :=
  match orElseEmpty value (.arr []) with
  | .obj members => .ok (members.map (·.2))
  | other => other.toItems

/-- A datatype, taken out of the object that may hold it. -/
def bareDatatype : Json → Json
  | .obj members => Json.member "value" members
  | other => other

/-- A value if it counts as given. -/
def ifSet (value : Json) : Option Json := if value.isSet then some value else none

/-- A spec; `uri` is the one it has if it names none itself. -/
def FilterSpec.read (uri : Json) (value : Json) (path : String) : Except Failure FilterSpec :=
  match value with
  | .obj members => do
    let uri := orElseEmpty (Json.member "uri" members) uri
    if !uri.isSet then .error (.missing (path ++ ".uri"))
    let clauses ← Fault.raise (clauseItems (Json.member "filters" members))
    let clauses ← readItems Clause.read (path ++ ".filters") clauses
    .ok {
      uri
      var := ifSet (Json.member "predicateName" members)
      isOptional := (Json.member "isOptional" members).isSet
      isSelectable := (Json.member "isSelectable" members).isSet
      datatype := ifSet (bareDatatype (Json.member "datatype" members))
      clauses }
  | _ => .error (.missingField path .specNotObject)

/-- The specs of a key, from a list or from an object keyed by IRI. -/
def readSpecs (value : Json) (path : String) : Except Failure (List FilterSpec) :=
  if !value.isSet then .ok []
  else match value with
    | .obj members =>
      members.mapM fun (name, spec) =>
        FilterSpec.read (.str name) spec (path ++ "[" ++ quoted name ++ "]")
    | other => do
      let items ← Fault.raise other.toItems
      readItems (FilterSpec.read .null) path items

/-- The value of a modifier of an observable, if it is enabled and has one. -/
def enabledValue? : Json → Option Json
  | .obj members =>
    let value := Json.member "value" members
    if (Json.member "enabled" members).isSet && !value.isMissing then some value else none
  | _ => none

/-- A limit among the modifiers of an observable, if it is enabled. -/
def readEnabledLimit (modifiers : List (String × Json)) (path : String) :
    Except Failure (Option Int) :=
  match enabledValue? (Json.member "limit" modifiers) with
  | some limit => readLimit limit (path ++ ".modifiers.limit.value")
  | none => .ok none

/-- An observable with its modifiers. -/
def Observable.read (value : Json) (path : String) : Except Failure Observable := do
  let subject ← required value "subject" path
  let predicate ← required value "predicate" path
  let object ← required value "object" path
  let modifiers ← Fault.raise (value.get "modifiers")
  let modifiers ← Fault.raise (orElseEmpty modifiers (.obj [])).toMembers
  let order := Json.member "orderBy" modifiers
  let limit ← readEnabledLimit modifiers path
  let sortKey := enabledValue? order
  .ok {
    subject := subject.display
    predicate := predicate.display
    object := object.display
    limit
    sortKey := sortKey.map Json.display
    sortDirection := match sortKey, order with
      | some _, .obj members => Json.member "direction" members
      | _, _ => .null }

/-- The pattern of a search by place. -/
def SensorPattern.read (value : Json) (path : String) : Except Failure SensorPattern :=
  match value with
  | .obj _ => do
    let name := (← required value "sensorKey" path).display
    let slot ← match name with
      | "s" => .ok Slot.subject
      | "p" => .ok Slot.predicate
      | "o" => .ok Slot.object
      | _ => .error (.missing (path ++ "." ++ name))
    let subject ← required value "s" path
    let predicate ← required value "p" path
    let object ← required value "o" path
    .ok {
      subject := subject.display
      predicate := predicate.display
      object := object.display
      slot }
  | _ => .error (.missing path)

/-- How all solutions are sorted, if both members are there. -/
def SortSpec.read : Json → Option SortSpec
  | .obj members =>
    match members.lookup "expression", members.lookup "direction" with
    | some expression, some direction =>
      some { expression := expression.displayIfSet, direction := direction.displayIfSet }
    | _, _ => none
  | _ => none

/-- The entries of the filters of a request, by key. -/
def filterEntries (members : List (String × Json)) : Except Failure (List (String × Json)) :=
  match orElseEmpty (Json.member "filters" members) (.obj []) with
  | .obj filters => .ok filters
  | _ => .error (.missingField "filters" .filtersNotObject)

/-- The specs of an entry of the filters, with its key. -/
def readEntry (entry : String × Json) : Except Failure (String × List FilterSpec) :=
  (readSpecs entry.2 ("filters[" ++ quoted entry.1 ++ "]")).map fun specs => (entry.1, specs)

/-- A request. -/
def Request.read : Json → Except Failure Request
  | .obj members => do
    let entries ← filterEntries members
    let items ← Fault.raise (orElseEmpty (Json.member "observables" members) (.arr [])).toItems
    let observables ← readItems Observable.read "observables" items
    let keys ← Fault.raise (orElseEmpty (Json.member "observablesKeys" members) (.arr [])).toItems
    let filters ← entries.mapM readEntry
    let limit ← readLimit (Json.member "limit" members) "limit"
    .ok {
      observables
      keys := keys.map Json.display
      filters
      sort := SortSpec.read (Json.member "sortBy" members)
      limit
      sensorPattern := Json.member "sensorPattern" members }
  | _ => .error (.missingField "observables" .requestNotObject)

end SparqlSelect
