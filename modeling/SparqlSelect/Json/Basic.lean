import SparqlSelect.Number.Binary64

/-!
# JSON values

Requests and settings arrive as JSON. An integer and a double stay apart, because they are written
differently in a query, and an object keeps its members in the order in which they came.

* `Json.isSet` — the values that count as given: all but `null`, `false`, zero and what is empty.
* `Json.equal` — equality of the values that can be members of a set: an integer equals the double
  and the truth value of the same amount.
* `Json.member` — a member of an object, `null` if it is not there.
-/

namespace SparqlSelect

/-- A JSON value; members of an object are in order and their names are distinct. -/
inductive Json where
  | null
  | bool (value : Bool)
  | int (value : Int)
  | float (value : Binary64)
  | str (value : String)
  | arr (items : List Json)
  | obj (members : List (String × Json))

/-- Sets a member: in its old place if an equal name is there, else at the end. -/
def setMember {κ α : Type} (equal : κ → κ → Bool) (name : κ) (value : α) :
    List (κ × α) → List (κ × α)
  | [] => [(name, value)]
  | (n, v) :: rest =>
    if equal n name then (n, value) :: rest else (n, v) :: setMember equal name value rest

namespace Json

instance : Inhabited Json := ⟨.null⟩

/-- An object from members in the order in which they were read: a name that comes again keeps its
place and takes the later value. -/
def ofMembers (members : List (String × Json)) : Json :=
  .obj (members.foldl (fun done m => setMember (· == ·) m.1 m.2 done) [])

/-- Whether a value counts as given. -/
def isSet : Json → Bool
  | .null => false
  | .bool b => b
  | .int n => n != 0
  | .float x => !x.isZero
  | .str s => s != ""
  | .arr items => !items.isEmpty
  | .obj members => !members.isEmpty

/-- Whether a value is `null` or the empty text, which both stand for an absent value. -/
def isMissing : Json → Bool
  | .null => true
  | .str s => s == ""
  | _ => false

/-- A member of a list of members, `null` if there is none. -/
def member (name : String) (members : List (String × Json)) : Json :=
  (members.lookup name).getD .null

/-- Where a truth value or a number stands in the order of amounts: a sign for an infinite one, and
else zero with a whole number of the smallest units of a double. -/
def rank? : Json → Option (Int × Int)
  | .bool b => some (0, if b then Binary64.unitsPerOne else 0)
  | .int n => some (0, n * Binary64.unitsPerOne)
  | .float (.finite s u) => some (0, Binary64.signed s u)
  | .float (.infinite s) => some (if s then -1 else 1, 0)
  | _ => none

/-- Whether a value is a number or a truth value. -/
def isNumber : Json → Bool
  | .bool _ | .int _ | .float _ => true
  | _ => false

/-- Equality of texts, numbers, truth values and `null`; numbers are equal when their amounts are.
-/
def equal (a b : Json) : Bool :=
  match a.rank?, b.rank? with
  | some m, some n => m == n
  | none, none =>
    match a, b with
    | .null, .null => true
    | .str s, .str t => s == t
    | _, _ => false
  | _, _ => false

/-- Whether a value can be a member of a set: lists and objects cannot. -/
def isScalar : Json → Bool
  | .arr _ | .obj _ => false
  | _ => true

mutual

/-- Whether two values are the same, the kinds of their numbers included. -/
def same : Json → Json → Bool
  | .null, .null => true
  | .bool a, .bool b => a == b
  | .int a, .int b => a == b
  | .float a, .float b => decide (a = b)
  | .str a, .str b => a == b
  | .arr a, .arr b => sameItems a b
  | .obj a, .obj b => sameMembers a b
  | _, _ => false

/-- Whether two lists hold the same values in the same order. -/
def sameItems : List Json → List Json → Bool
  | [], [] => true
  | a :: as, b :: bs => same a b && sameItems as bs
  | _, _ => false

/-- Whether two objects have the same members in the same order. -/
def sameMembers : List (String × Json) → List (String × Json) → Bool
  | [], [] => true
  | (m, a) :: as, (n, b) :: bs => m == n && same a b && sameMembers as bs
  | _, _ => false

end

end Json

end SparqlSelect
