import SparqlSelect.Unicode.Case

/-!
# Function calls

A clause may ask for a function of a variable instead of constraining it. An aggregate is computed
over a group of solutions, a temporal function for each solution. Calls are grouped by the key of
the observable they were asked for, keys and calls in the order of the requests.
-/

namespace SparqlSelect

/-- How a function is computed. -/
inductive FunctionCategory where
  | aggregate
  | temporal
deriving DecidableEq, Repr

/-- A function asked for on a variable, with the triple and the key of its observable. -/
structure FunctionCall where
  category : FunctionCategory
  function : String
  var : String
  uri : String
  subject : String
  predicate : String
  object : String
  key : String
deriving DecidableEq, Repr

namespace FunctionCall

/-- A variable without its marks. -/
def bareName (var : String) : String :=
  String.ofList (var.toList.dropWhile fun c => c == '?' || c == '$')

/-- The variable that takes the value: `AVG` of `?temperature` is `?AvgTemperature`. -/
def resultVar (c : FunctionCall) : String :=
  "?" ++ capitalize (lowerCase c.function) ++ upperFirst (bareName c.var)

/-- The call as it is written. -/
def text (c : FunctionCall) : String := c.function ++ "(" ++ c.var ++ ")"

/-- The call with its alias, as it is selected. -/
def selectItem (c : FunctionCall) : String := "(" ++ c.text ++ " AS " ++ c.resultVar ++ ")"

/-- Calls by key: the keys in the order in which they first appear, each with its calls in order. -/
def grouped (calls : List FunctionCall) : List (String × List FunctionCall) :=
  (calls.map (·.key)).eraseDups.map fun key => (key, calls.filter (·.key == key))

end FunctionCall

end SparqlSelect
