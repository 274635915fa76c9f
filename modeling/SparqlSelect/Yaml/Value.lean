import SparqlSelect.Json.Writer
import SparqlSelect.Yaml.Node
import SparqlSelect.Yaml.Scalar

/-!
# Values of documents

The value of a tree has the value of each scalar in its place. Members of a mapping have distinct
names: one that comes again keeps its place and takes the later value, so a value that is overridden
leaves no trace. The name `<<` takes over the members of another mapping, or of several of which the
first counts most; they come before the mapping's own members, which override them.

* `Node.value` — the value of a tree; a scalar of a bad form is a fault wherever it stands.
* `Value.toJson` — the JSON of a value, which has to be free of dates.
-/

namespace SparqlSelect.Yaml

/-- What a document says; the members of a mapping are in order and their names are distinct. -/
inductive Value where
  | scalar (value : Scalar)
  | list (items : List Value)
  | mapping (members : List (Scalar × Value))

/-- The name of a member. -/
def Node.name : Node → Except Fault Scalar
  | .plain text => if text == "=" then .ok (.json (.str text)) else plainScalar text
  | .quoted text => .ok (.json (.str text))
  | .list _ | .mapping _ => .error .badForm

/-- Whether a member takes over the members of other mappings. -/
def Node.takesOver : Node → Bool
  | .plain text => text == "<<"
  | _ => false

/-- Members of which none has the name of another. -/
def distinct (members : List (Scalar × Value)) : List (Scalar × Value) :=
  members.foldl (fun done m => setMember Scalar.equal m.1 m.2 done) []

mutual

/-- The value of a tree. -/
def Node.value : Node → Except Fault Value
  | .plain text => (plainScalar text).map .scalar
  | .quoted text => .ok (.scalar (.json (.str text)))
  | .list items => (Node.values items).map .list
  | .mapping members => do
    let (taken, own) ← Node.memberValues members
    .ok (.mapping (distinct (taken ++ own)))

/-- The values of items. -/
def Node.values : List Node → Except Fault (List Value)
  | [] => .ok []
  | item :: rest => do
    let first ← item.value
    .ok (first :: (← Node.values rest))

/-- The names and the values of members: those that are taken over, and the mapping's own. -/
def Node.memberValues : List (Node × Node) →
    Except Fault (List (Scalar × Value) × List (Scalar × Value))
  | [] => .ok ([], [])
  | (name, value) :: rest =>
    if name.takesOver then do
      let first ← Node.takenMembers value
      let (taken, own) ← Node.memberValues rest
      .ok (first ++ taken, own)
    else do
      let name ← name.name
      let value ← value.value
      let (taken, own) ← Node.memberValues rest
      .ok (taken, (name, value) :: own)

/-- The members that are taken over from a mapping, or from a list of mappings with the last first.
-/
def Node.takenMembers : Node → Except Fault (List (Scalar × Value))
  | .mapping members => do
    let (taken, own) ← Node.memberValues members
    .ok (taken ++ own)
  | .list items => Node.takenItems items
  | .plain _ | .quoted _ => .error .badForm

/-- The members of mappings in a list, with the last mapping first. -/
def Node.takenItems : List Node → Except Fault (List (Scalar × Value))
  | [] => .ok []
  | .mapping members :: rest => do
    let (taken, own) ← Node.memberValues members
    .ok ((← Node.takenItems rest) ++ taken ++ own)
  | _ :: _ => .error .badForm

end

-- ---------------------------------------------------------------------------
-- JSON
-- ---------------------------------------------------------------------------

/-- The name of a member where names are texts. -/
def nameText : Json → String
  | .str s => s
  | other => other.write

mutual

/-- The JSON of a value. -/
def Value.toJson : Value → Except Fault Json
  | .scalar value => value.toJson
  | .list items => (Value.toItems items).map .arr
  | .mapping members => (Value.toPairs members).map fun pairs =>
      Json.ofMembers (pairs.map fun (name, value) => (nameText name, value))

/-- The JSON of items. -/
def Value.toItems : List Value → Except Fault (List Json)
  | [] => .ok []
  | item :: rest => do
    let first ← item.toJson
    .ok (first :: (← Value.toItems rest))

/-- The JSON of members, whose names stay what they are. -/
def Value.toPairs : List (Scalar × Value) → Except Fault (List (Json × Json))
  | [] => .ok []
  | (name, value) :: rest => do
    let name ← name.toJson
    let value ← value.toJson
    .ok ((name, value) :: (← Value.toPairs rest))

end

end SparqlSelect.Yaml
