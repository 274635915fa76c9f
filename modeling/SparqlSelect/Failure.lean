import SparqlSelect.Fragment.Kind
import SparqlSelect.Json.Display

/-!
# Failures

Why a request has no query. Most causes are found by a check and have a message; a `Fault` is met
where no check looks and has none. The check of a fragment may itself end in a fault: a condition is
followed into its brackets, and there is a limit to that.
-/

namespace SparqlSelect

/-- Why a required field is missing. -/
inductive Absence where
  /-- The field itself is not there. -/
  | field
  /-- A clause is not an object. -/
  | clauseNotObject
  /-- A filter spec is not an object. -/
  | specNotObject
  /-- The request is not an object. -/
  | requestNotObject
  /-- The filters are not an object. -/
  | filtersNotObject
deriving DecidableEq, Repr

/-- What a field should have held. -/
inductive Expected where
  | count
  | number
deriving DecidableEq, Repr

/-- Why there is no result. -/
inductive Failure where
  /-- The bytes of a request are not UTF-8. -/
  | notUtf8
  /-- The text of a request is not JSON. -/
  | notJson
  /-- A required field is missing. -/
  | missingField (path : String) (absence : Absence)
  /-- A field holds a value of the wrong shape. -/
  | invalidField (path : String) (value : Json) (expected : Expected)
  /-- A fragment is of none of the kinds that are allowed where it should go. -/
  | rejected (fragment : Json) (allowed : List Kind)
  /-- A triple leaves out its subject, and no triple before it has given one. -/
  | noSubject
  /-- The element to insert after is not in the group. -/
  | foreignAnchor
  /-- A fault that no check has found. -/
  | fault (fault : Fault)

/-- The end of the message on a field of the wrong shape. -/
def Expected.describe : Expected → String
  | count => "a non-negative integer"
  | number => "a number"

/-- The message on a missing field. -/
def Absence.message (path : String) : Absence → String
  | field => "Missing required field: " ++ path
  | clauseNotObject => "Filter clause at " ++ path ++ " must be an object"
  | specNotObject => "Filter spec at " ++ path ++ " must be an object"
  | requestNotObject => "Request body must be a JSON object"
  | filtersNotObject => "filters must be an object keyed by observable key"

/-- The message on a failure; a `Fault` has none. -/
def Failure.message : Failure → String
  | notUtf8 => "Invalid encoding, expected UTF-8."
  | notJson => "Invalid JSON format"
  | missingField path absence => absence.message path
  | invalidField path value expected =>
    "Invalid value for " ++ path ++ ": expected " ++ expected.describe ++ ", got " ++ value.literal
  | rejected fragment allowed =>
    "expression has to be a " ++ " or a ".intercalate (Kind.labels allowed) ++ ", got " ++
      fragment.display
  | noSubject => "also() called before where()"
  | foreignAnchor => "anchor element is not part of this group"
  | fault _ => ""

/-- A field that is not there. -/
def Failure.missing (path : String) : Failure := .missingField path .field

namespace Kind

/-- Lets a fragment pass if it is a text of one of the allowed kinds. -/
def check (allowed : List Kind) (fragment : Json) : Except Failure String :=
  match fragment with
  | .str s => if acceptsAny allowed s then .ok s else .error (.rejected fragment allowed)
  | other => .error (.rejected other allowed)

/-- The same where conditions are allowed, whose brackets may stand inside at most `limit` others.
-/
def checkWithin (limit : Nat) (allowed : List Kind) (fragment : Json) : Except Failure String :=
  match fragment with
  | .str s =>
    match acceptsAnyWithin limit allowed s with
    | .ok true => .ok s
    | .ok false => .error (.rejected fragment allowed)
    | .error f => .error (.fault f)
  | other => .error (.rejected other allowed)

/-- Lets a text pass if it is of one of the allowed kinds. -/
def checkText (allowed : List Kind) (fragment : String) : Except Failure String :=
  check allowed (.str fragment)

/-- What passes is a text of an allowed kind, and it comes out as it went in. -/
theorem check_eq_ok_iff {allowed : List Kind} {fragment : Json} {s : String} :
    check allowed fragment = .ok s ↔ fragment = .str s ∧ acceptsAny allowed s = true := by
  cases fragment with
  | str t =>
    constructor
    · intro h
      simp only [check] at h
      split at h
      · rename_i ht
        cases h
        exact ⟨rfl, ht⟩
      · cases h
    · rintro ⟨h, hs⟩
      cases h
      simp [check, hs]
  | _ => simp [check]

/-- What passes within a limit is a text that is found to be of an allowed kind. -/
theorem checkWithin_eq_ok_iff {limit : Nat} {allowed : List Kind} {fragment : Json} {s : String} :
    checkWithin limit allowed fragment = .ok s ↔
      fragment = .str s ∧ acceptsAnyWithin limit allowed s = .ok true := by
  cases fragment with
  | str t =>
    constructor
    · intro h
      simp only [checkWithin] at h
      split at h
      · rename_i ht
        cases h
        exact ⟨rfl, ht⟩
      · cases h
      · cases h
    · rintro ⟨h, hs⟩
      cases h
      simp [checkWithin, hs]
  | _ => simp [checkWithin]

theorem checkText_eq_ok_iff {allowed : List Kind} {fragment s : String} :
    checkText allowed fragment = .ok s ↔ fragment = s ∧ acceptsAny allowed s = true := by
  simp [checkText, check_eq_ok_iff]

end Kind

end SparqlSelect
