import SparqlSelect.Filter.Kind
import SparqlSelect.Request.Basic
import SparqlSelect.Settings.Basic
import SparqlSelect.Traced

/-!
# From clauses to fragments

A clause that constrains something gives one fragment: an expression for a `FILTER`, or a circle or
a polygon for the object of a geospatial triple. A clause gives none if it asks for a function, if
its kind is not supported, or if what it needs is missing; that is no error.

* `escapeText` — a value inside the quotes of a literal.
* `Settings.translate` — the fragment of a clause.
-/

namespace SparqlSelect

/-- A character inside the double quotes of a literal. -/
def escapeChar (c : Char) : List Char :=
  match c with
  | '\\' => ['\\', '\\']
  | '"' => ['\\', '"']
  | '\n' => ['\\', 'n']
  | '\r' => ['\\', 'r']
  | '\t' => ['\\', 't']
  | c => [c]

/-- A value inside the double quotes of a literal. -/
def escapeText (value : Json) : String := String.ofList (value.display.toList.flatMap escapeChar)

/-- A literal in double quotes. -/
def literalOf (value : Json) : String := "\"" ++ escapeText value ++ "\""

/-- A coordinate: a whole double is written as an integer. -/
def coordinateText : Json → String
  | .float (.finite s u) =>
    if (Binary64.finite s u).isWhole then toString (Binary64.integerPart s u)
    else (Binary64.finite s u).text
  | other => other.display

/-- Meters as kilometers, with up to two places. -/
def kilometers (meters : Binary64) : String :=
  let s := (meters.divideBy 1000).roundToHundredths.fixedHundredths
  String.ofList (((s.reverse.dropWhile (· == '0')).dropWhile (· == '.')).reverse)

/-- Whether a value holds a name: an object as a member name, a list as an item, a text inside it.
-/
def holdsName (name : String) : Json → Except Fault Bool
  | .obj members => .ok (members.lookup name).isSome
  | .arr items => .ok (items.any (·.equal (.str name)))
  | .str s => .ok (occursIn name.toList s.toList)
  | .null | .bool _ | .int _ | .float _ => .error .wrongType

/-- A member of a value in which its name was found; a text or a list has no named members. -/
def namedMember (name : String) : Json → Except Fault Json
  | .obj members => match members.lookup name with
    | some v => .ok v
    | none => .error .absentMember
  | _ => .error .wrongType

/-- The item of a list or the character of a text at a position. -/
def itemAt (i : Nat) : Json → Except Fault Json
  | .arr items => match items[i]? with
    | some v => .ok v
    | none => .error .tooShort
  | .str s => match s.toList[i]? with
    | some c => .ok (.str (String.singleton c))
    | none => .error .tooShort
  | _ => .error .wrongType

/-- The latitude and the longitude of a corner: members of those names, or the first two items. -/
def corner : Json → Except Fault (Json × Json)
  | .obj members => do
    .ok (← namedMember "lat" (.obj members), ← namedMember "lng" (.obj members))
  | other => do .ok (← itemAt 0 other, ← itemAt 1 other)

/-- The circle of a clause, if it has a middle and a radius. -/
def circleOf (s : Settings) (c : Clause) : Except Fault (Option String) :=
  match c.radius with
  | none => .ok none
  | some radius => do
    let center := if c.center.isSet then c.center else .obj []
    if !(← holdsName "lat" center) then return none
    if !(← holdsName "lng" center) then return none
    let latitude ← namedMember "lat" center
    let longitude ← namedMember "lng" center
    return some ("(" ++ coordinateText latitude ++ " " ++ coordinateText longitude ++ " " ++
      kilometers radius ++ " <" ++ s.distanceUnit.display ++ ">)")

/-- The polygon of a clause, if it has corners; longitudes come first. -/
def polygonOf (c : Clause) : Except Fault (Option String) := do
  let corners ← c.points.mapM corner
  if corners.isEmpty then return none
  let points := corners.map fun (latitude, longitude) =>
    coordinateText longitude ++ " " ++ coordinateText latitude
  return some ("\"POLYGON((" ++ ", ".intercalate points ++ "))\"^^geo:wktLiteral")

namespace Settings

/-- A typed literal. -/
def typedLiteral (s : Settings) (value datatype : Json) : Except Fault String := do
  .ok (literalOf value ++ "^^" ++ (← abbreviate datatype s.datatypePrefix))

/-- A clause that asks whether the start of a text matches; other values are compared. -/
def matchFragment (s : Settings) (var : String) (value datatype : Json) : Except Fault String := do
  if ← holdsName "string" datatype then
    .ok ("regex(" ++ var ++ ", \"^" ++ escapeText value ++ "\")")
  else .ok (var ++ " = " ++ (← s.typedLiteral value datatype))

/-- The expression of a clause on a variable, by its kind. -/
def expression (s : Settings) (kind : FilterKind) (c : Clause) (var : String) (datatype : Json) :
    Except Fault (Option String) :=
  match kind with
  | .contain => .ok (some ("regex(str(" ++ var ++ "), " ++ literalOf c.value ++ ", \"i\")"))
  | .bound =>
    let negation := if occursIn "not".toList c.value.displayIfSet.toList then "!" else ""
    .ok (some (negation ++ "BOUND(" ++ var ++ ")"))
  | .startMatch => (s.matchFragment var c.value datatype).map some
  | .regexMatch => .ok (some ("regex(" ++ var ++ ", " ++ literalOf c.value ++ ")"))
  | .range => do
    let literal ← s.typedLiteral c.value datatype
    .ok (some (var ++ " " ++ comparisonSymbol c.comparison ++ " " ++ literal))
  | .nearby | .within | .aggregateFunction | .temporalFunction | .unsupported => .ok none

/-- Names that were ranges once and have no effect. -/
def formerRanges : List String := ["daterange", "timerange", "datetimerange"]

/-- Leaves a message on a clause that is passed over, and gives no fragment. -/
def passOver (c : Clause) (before after : String) : Traced (Option String) := do
  Traced.log .debug ("Ignoring " ++ before ++ "'" ++ c.name.display ++ "'" ++ after)
  return none

/-- A fragment, or a message that it is missing something. -/
def orMessage (fragment : Option String) (message : String) : Traced (Option String) := do
  if fragment.isNone then Traced.log .debug message
  return fragment

/-- The fragment of a clause on a variable with a datatype, both of which may be missing. -/
def translate (s : Settings) (c : Clause) (var datatype : Option Json) :
    Traced (Option String) := do
  let name ← Fault.raise (FilterKind.nameOf c.name)
  let kind := FilterKind.ofPlainName (FilterKind.plainName name)
  match kind with
  | .aggregateFunction | .temporalFunction => return none
  | .unsupported =>
    passOver c
      (if formerRanges.contains (FilterKind.plainName name) then "unreachable range variant "
        else "unsupported filter kind ") ""
  | .nearby =>
    orMessage (← Fault.raise (circleOf s c)) "Ignoring nearby filter without center/radius"
  | .within =>
    orMessage (← Fault.raise (polygonOf c)) "Ignoring within filter without coordinates"
  | .contain | .bound | .startMatch | .regexMatch | .range =>
    match var with
    | none => passOver c "" " filter without a variable to constrain"
    | some var =>
      if kind.needsValue && c.value.isMissing then passOver c "" " filter without a value"
      else Fault.raise (s.expression kind c var.display (datatype.getD s.defaultDatatype))

end Settings

end SparqlSelect
