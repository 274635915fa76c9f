import SparqlSelect.Failure
import SparqlSelect.Number.Reader

/-!
# Numbers and lists from values

A number may be given as a number, as a truth value, or typed in a text. A list may be given as a
list, as a text, which is the list of its characters, or as an object, which is the list of its
member names.
-/

namespace SparqlSelect.Json

/-- The integer of a value: a double is cut toward zero, a truth value is one or zero. -/
def toInteger : Json → Except Fault Int
  | .bool b => .ok (if b then 1 else 0)
  | .int n => .ok n
  | .float (.finite s u) => .ok (Binary64.integerPart s u)
  | .float (.infinite _) => .error .tooLarge
  | .float .nan => .error .badForm
  | .str s => match readInteger? s with
    | some n => .ok n
    | none => .error .badForm
  | .null | .arr _ | .obj _ => .error .wrongType

/-- The double of a value: an integer is rounded, a truth value is one or zero. -/
def toDouble : Json → Except Fault Binary64
  | .bool b => .ok (if b then .finite false Binary64.unitsPerOne else .zero)
  | .int n => match Binary64.ofInt? n with
    | some x => .ok x
    | none => .error .tooLarge
  | .float x => .ok x
  | .str s => match readDouble? s with
    | some x => .ok x
    | none => .error .badForm
  | .null | .arr _ | .obj _ => .error .wrongType

/-- The items of a value that is gone through one by one. -/
def toItems : Json → Except Fault (List Json)
  | .arr items => .ok items
  | .str s => .ok (s.toList.map fun c => .str (String.singleton c))
  | .obj members => .ok (members.map fun (name, _) => .str name)
  | .null | .bool _ | .int _ | .float _ => .error .wrongType

/-- The members of an object; no other value is asked for a member by name. -/
def toMembers : Json → Except Fault (List (String × Json))
  | .obj members => .ok members
  | _ => .error .noMembers

/-- A member of a value that has to be an object, `null` if it is not there. -/
def get (value : Json) (name : String) : Except Fault Json := value.toMembers.map (member name)

end SparqlSelect.Json

namespace SparqlSelect

/-- A fault as the failure it is. -/
def Fault.raise {α : Type} (r : Except Fault α) : Except Failure α := r.mapError .fault

end SparqlSelect
