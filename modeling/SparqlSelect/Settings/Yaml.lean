import SparqlSelect.Settings.Basic
import SparqlSelect.Yaml.Value

/-!
# Settings files

A settings file is a YAML document that holds a settings object. An empty document, and one whose
value does not count as given, sets nothing. A date is no value of a setting, but it may stand where
no setting looks: under an unknown name, or in an entry that a later one overrides.

* `Settings.readYaml` — the settings that a document gives over the standard ones.
-/

namespace SparqlSelect.Settings

/-- The entries of a settings file, those whose name is no text left out. -/
def fileEntries (members : List (Yaml.Scalar × Yaml.Value)) : List (String × Yaml.Value) :=
  members.filterMap fun
    | (.json (.str name), value) => some (name, value)
    | _ => none

/-- The JSON of a value that is gone through item by item: a mapping counts as the list of its
names, which keep their types. -/
def listed : Yaml.Value → Except Fault Json
  | .mapping members => do .ok (.arr (← members.mapM fun (name, _) => name.toJson))
  | value => value.toJson

/-- An item of a list of prefixes. A date has no two halves, and `null` says as much. -/
def prefixItem : Yaml.Value → Except Fault Json
  | .scalar .date => .ok .null
  | item => listed item

/-- The prefixes of a settings file. A mapping keeps its names as they are, so it becomes a list of
pairs. -/
def filePrefixes : Yaml.Value → Except Fault Json
  | .mapping members => do
    let pairs ← Yaml.Value.toPairs members
    .ok (.arr (pairs.map fun (name, value) => .arr [name, value]))
  | .list items => (items.mapM prefixItem).map .arr
  | value => value.toJson

/-- The entry of a name, if there is one. -/
def fileEntry (name : String) (entries : List (String × Yaml.Value))
    (toJson : Yaml.Value → Except Fault Json) : Except Fault (List (String × Json)) :=
  match entries.lookup name with
  | some value => (toJson value).map fun json => [(name, json)]
  | none => .ok []

/-- The settings of the entries of a file; the prefixes come first, then the functions. -/
def readEntries (entries : List (String × Yaml.Value)) : Except Fault Settings := do
  let s ← read (.obj (← fileEntry "prefixes" entries filePrefixes))
  let geoFunctions ← geoFunctionsIn (← fileEntry "geo_function_iris" entries listed)
  let others ← (entryNames.drop 2).mapM fun name => fileEntry name entries Yaml.Value.toJson
  .ok { s.withEntries others.flatten with geoFunctions }

/-- The settings that a document gives. -/
def readYaml (text : String) : Except Fault Settings := do
  match ← (← Yaml.read text).value with
  | .mapping members => readEntries (fileEntries members)
  | .scalar .date => .error .noMembers
  | .scalar (.json value) => read (if value.isSet then value else .obj [])
  | .list items => if items.isEmpty then .ok standard else .error .noMembers

end SparqlSelect.Settings
