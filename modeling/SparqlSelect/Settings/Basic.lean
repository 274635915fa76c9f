import SparqlSelect.Json.Convert

/-!
# Settings

Tables that are looked up while a request is compiled. They come from a settings object and are kept
as they were given: a value is turned into text where a query needs it. Besides them there is one
limit of the machine, which a settings object neither has nor changes.

* `Settings.standard` — what holds when nothing is set.
* `Settings.read` — a settings object over the standard ones: prefixes are added to the standard
  prefixes, every other entry replaces the standard value.
* `Settings.construct` — the same with the prefixes replaced, and with no unknown entries.
* `Settings.write` — the settings object that gives the settings back.
-/

namespace SparqlSelect

/-- What the compiler consults besides the request. -/
structure Settings where
  /-- Names and IRIs, in the order in which they are declared. -/
  prefixes : List (Json × Json)
  /-- The IRIs that name a geospatial function, each once. -/
  geoFunctions : List Json
  distanceUnit : Json
  sensorClass : Json
  featureOfInterest : Json
  latitude : Json
  longitude : Json
  /-- The prefix of abbreviated datatypes. -/
  datatypePrefix : Json
  /-- The datatype of a variable for which none is given. -/
  defaultDatatype : Json
  /-- How many others a bracket of a condition may stand inside. This is set by where the compiler
  runs and by no settings object. -/
  nesting : Nat

namespace Settings

/-- The namespace of the datatypes of XML Schema. -/
def xsd : String := "http://www.w3.org/2001/XMLSchema#"

/-- The prefixes that are there from the start. -/
def standardPrefixes : List (Json × Json) :=
  [(.str "xsd", .str xsd),
   (.str "rdfs", .str "http://www.w3.org/2000/01/rdf-schema#"),
   (.str "geo", .str "http://www.opengis.net/ont/geosparql#")]

/-- The settings that hold when nothing is set. -/
def standard : Settings where
  prefixes := standardPrefixes
  geoFunctions :=
    [.str "http://www.opengis.net/def/function/geosparql/nearby",
     .str "http://www.opengis.net/def/function/geosparql/within"]
  distanceUnit := .str "http://qudt.org/vocab/unit#Kilometer"
  sensorClass := .str "http://www.w3.org/ns/sosa/Sensor"
  featureOfInterest := .str "http://www.w3.org/ns/sosa/hasFeatureOfInterest"
  latitude := .str "http://www.w3.org/2003/01/geo/wgs84_pos#lat"
  longitude := .str "http://www.w3.org/2003/01/geo/wgs84_pos#long"
  datatypePrefix := .str "xsd"
  defaultDatatype := .str (xsd ++ "string")
  nesting := 107

/-- A value that can be a name or a member of a set. -/
def scalar (value : Json) : Except Fault Json :=
  if value.isScalar then .ok value else .error .wrongType

/-- The two halves of an item of a list of pairs. -/
def pairOf (item : Json) : Except Fault (Json × Json) := do
  match ← item.toItems with
  | [name, value] => .ok (← scalar name, value)
  | _ => .error .badForm

/-- Names and values, from an object or from a list of pairs. -/
def pairsOf : Json → Except Fault (List (Json × Json))
  | .obj members => .ok (members.map fun (name, value) => (.str name, value))
  | other => do (← other.toItems).mapM pairOf

/-- A table with pairs added: a name that is there keeps its place and takes the new value. -/
def merge (table pairs : List (Json × Json)) : List (Json × Json) :=
  pairs.foldl (fun done p => setMember Json.equal p.1 p.2 done) table

/-- The distinct members of a value that is a set. -/
def setOf (value : Json) : Except Fault (List Json) := do
  let members ← (← value.toItems).mapM scalar
  .ok (members.foldl (fun done v => if done.any (·.equal v) then done else done ++ [v]) [])

/-- The names of the entries of a settings object. -/
def entryNames : List String :=
  ["prefixes", "geo_function_iris", "distance_unit_iri", "sensor_class_iri",
   "feature_of_interest_iri", "latitude_iri", "longitude_iri", "datatype_prefix",
   "default_datatype"]

/-- The entries that are kept as they are, over the standard values. -/
def withEntries (s : Settings) (entries : List (String × Json)) : Settings where
  prefixes := s.prefixes
  geoFunctions := s.geoFunctions
  distanceUnit := (entries.lookup "distance_unit_iri").getD s.distanceUnit
  sensorClass := (entries.lookup "sensor_class_iri").getD s.sensorClass
  featureOfInterest := (entries.lookup "feature_of_interest_iri").getD s.featureOfInterest
  latitude := (entries.lookup "latitude_iri").getD s.latitude
  longitude := (entries.lookup "longitude_iri").getD s.longitude
  datatypePrefix := (entries.lookup "datatype_prefix").getD s.datatypePrefix
  defaultDatatype := (entries.lookup "default_datatype").getD s.defaultDatatype
  nesting := s.nesting

/-- The geospatial functions of a settings object. -/
def geoFunctionsIn (entries : List (String × Json)) : Except Fault (List Json) :=
  match entries.lookup "geo_function_iris" with
  | some value => setOf value
  | none => .ok standard.geoFunctions

/-- Settings from a settings object; unknown entries are passed over. -/
def read (value : Json) : Except Fault Settings := do
  let entries ← value.toMembers
  let given := Json.member "prefixes" entries
  let added ← if given.isSet then pairsOf given else .ok []
  let geoFunctions ← geoFunctionsIn entries
  .ok { standard.withEntries entries with
    prefixes := merge standardPrefixes added, geoFunctions }

/-- Settings whose prefixes are just those given; an unknown entry is refused. -/
def construct (value : Json) : Except Fault Settings := do
  let entries ← match value with
    | .obj entries => .ok entries
    | _ => .error .wrongType
  if entries.all (fun (name, _) => entryNames.contains name) then
    let prefixes ← match entries.lookup "prefixes" with
      | some given => (pairsOf given).map (merge [])
      | none => .ok standardPrefixes
    let geoFunctions ← geoFunctionsIn entries
    .ok { standard.withEntries entries with prefixes, geoFunctions }
  else .error .wrongType

/-- Whether an IRI names a geospatial function. -/
def isGeoFunction (s : Settings) (uri : Json) : Except Fault Bool := do
  let uri ← scalar uri
  .ok (s.geoFunctions.any (·.equal uri))

/-- Whether two members of a set are in order: texts by their characters, numbers by their amount,
and nothing else. A number that has no amount is in order wherever it stands among numbers. -/
def inOrder (a b : Json) : Except Fault Bool :=
  match a, b with
  | .str s, .str t => .ok (decide (s ≤ t))
  | _, _ =>
    match a.rank?, b.rank? with
    | some m, some n => .ok (decide (m.1 < n.1 ∨ m.1 = n.1 ∧ m.2 ≤ n.2))
    | _, _ => if a.isNumber && b.isNumber then .ok true else .error .wrongType

/-- Puts a member into a sorted list. -/
def insertSorted (v : Json) : List Json → Except Fault (List Json)
  | [] => .ok [v]
  | w :: rest => do
    if ← inOrder v w then .ok (v :: w :: rest) else .ok (w :: (← insertSorted v rest))

/-- The members of a set in order. -/
def sorted (members : List Json) : Except Fault (List Json) := members.foldrM insertSorted []

/-- The entries of a settings object other than the prefixes, in the order of their names' list. -/
def otherEntries (s : Settings) : Except Fault (List (String × Json)) := do
  .ok [("geo_function_iris", .arr (← sorted s.geoFunctions)),
    ("distance_unit_iri", s.distanceUnit), ("sensor_class_iri", s.sensorClass),
    ("feature_of_interest_iri", s.featureOfInterest), ("latitude_iri", s.latitude),
    ("longitude_iri", s.longitude), ("datatype_prefix", s.datatypePrefix),
    ("default_datatype", s.defaultDatatype)]

/-- The settings object of settings, the prefixes as a list of pairs. -/
def write (s : Settings) : Except Fault Json := do
  let prefixes := Json.arr (s.prefixes.map fun (name, iri) => .arr [name, iri])
  .ok (.obj (("prefixes", prefixes) :: (← s.otherEntries)))

/-- Whether two values are equal or the very same; only what is not a number tells these apart. -/
def matching (a b : Json) : Bool := a.equal b || a.same b

/-- Whether two tables give the same value to the same names. -/
def sameTable (a b : List (Json × Json)) : Bool :=
  a.length == b.length &&
    a.all fun (name, v) => b.any fun (n, w) => matching n name && w.same v

/-- Whether two sets have the same members. -/
def sameSet (a b : List Json) : Bool := a.length == b.length && a.all fun v => b.any (matching · v)

/-- Whether two settings have the same tables, the order of prefixes and functions apart. -/
def same (s t : Settings) : Bool :=
  sameTable s.prefixes t.prefixes && sameSet s.geoFunctions t.geoFunctions &&
    s.distanceUnit.same t.distanceUnit && s.sensorClass.same t.sensorClass &&
    s.featureOfInterest.same t.featureOfInterest && s.latitude.same t.latitude &&
    s.longitude.same t.longitude && s.datatypePrefix.same t.datatypePrefix &&
    s.defaultDatatype.same t.defaultDatatype

end Settings

end SparqlSelect
