import SparqlSelect.Compile.Subgraph
import SparqlSelect.Request.Reader

/-!
# Search by place

A request without observables may ask for the sensors of an area. Its query finds one sensor for
each feature of interest whose position satisfies the filters; the keys of the filters are the terms
that geospatial functions are applied to.
-/

namespace SparqlSelect

/-- An IRI of the settings between angle brackets. -/
def bracketed (iri : Json) : Json := .str ("<" ++ iri.display ++ ">")

/-- The variable of the feature of interest. -/
def featureVar : String := "?featureOfInterest"

/-- The triples that say what a sensor, its feature and its position are. -/
def Settings.sensorDraft (s : Settings) (p : SensorPattern) : Except Failure Draft := do
  let subject := Json.str (bracketUrl p.subject)
  let sensor := Json.str (bracketUrl p.sensor)
  let d ← (Draft.start none).triple subject (.str (bracketUrl p.predicate))
    (.str (bracketUrl p.object))
  let d ← d.triple sensor (.str "a") (bracketed s.sensorClass)
  let d ← d.optional sensor (bracketed s.featureOfInterest) (.str featureVar)
  let d ← d.triple subject (bracketed s.latitude) (.str "?Latitude")
  d.triple subject (bracketed s.longitude) (.str "?Longitude")

/-- Writes what a clause of a search by place gives, if it was chosen and gives anything. -/
def Settings.applyLocationClause (s : Settings) (spec : FilterSpec) (isGeo : Bool) (entity : String)
    (p : Progress) (c : Clause) : Traced Progress := do
  if !c.isSelected then return p
  if isGeo then s.placeClause spec entity p c
  else match ← s.translate c spec.var spec.datatype with
    | none => return p
    | some fragment => p.write (·.filter s.nesting (.str fragment))

/-- Writes the clauses of a spec of a search by place. -/
def Settings.applyLocationSpec (s : Settings) (entity : String) (p : Progress) (spec : FilterSpec) :
    Traced Progress := do
  let isGeo ← Fault.raise (s.isGeoFunction spec.uri)
  spec.clauses.foldlM (s.applyLocationClause spec isGeo entity) p

/-- The pattern of a search by place, which the request has to have. -/
def Request.readPattern (r : Request) : Except Failure SensorPattern :=
  match r.sensorPattern with
  | .null => .error (.missing "sensorPattern")
  | value => SensorPattern.read value "sensorPattern"

/-- The specs of a request, each with the term that its geospatial functions are applied to. -/
def Request.placedSpecs (r : Request) : List (String × FilterSpec) :=
  r.filters.flatMap fun (entity, specs) => specs.map fun spec => (bracketUrl entity, spec)

/-- The item that selects one sensor of a group. -/
def sampleItem (sensor : String) : String := "(SAMPLE(" ++ sensor ++ ") AS ?sensorURI)"

/-- The query of a search by place. -/
def Settings.locationQuery (s : Settings) (r : Request) : Traced SelectQuery := do
  let pattern ← r.readPattern
  let draft ← s.sensorDraft pattern
  let done ← r.placedSpecs.foldlM (fun p (entity, spec) => s.applyLocationSpec entity p spec)
    (⟨draft, []⟩ : Progress)
  let sensor := bracketUrl pattern.sensor
  let sample ← Kind.checkText Kind.forSelect (sampleItem sensor)
  let terms ← [sensor, featureVar].mapM fun term =>
    (Kind.checkText Kind.forGrouping term : Except Failure String)
  Traced.log .info ("Compiled location discovery over " ++ toString r.filters.length ++
    " filtered entities")
  return {
    prefixes := s.prefixes
    projection := [sample, featureVar]
    body := (done.draft.union done.branches).group
    modifiers := [.groupBy terms]
    distinct := false }

end SparqlSelect
