import SparqlSelect.Fragment.Term
import SparqlSelect.Unicode.Case

/-!
# Kinds of filters

A clause names its filter in words, in any case. A name with `function` in it asks for a function;
the other names are fixed.

* `FilterKind.of` — the kind that a name stands for.
* `comparisonSymbol` — the symbol of a comparison that may be given as a word.
-/

namespace SparqlSelect

/-- What a clause does. -/
inductive FilterKind where
  | nearby
  | within
  | contain
  | bound
  | regexMatch
  | startMatch
  | range
  | aggregateFunction
  | temporalFunction
  | unsupported
deriving DecidableEq, Repr

namespace FilterKind

/-- The name of a kind. -/
def label : FilterKind → String
  | nearby => "nearby"
  | within => "within"
  | contain => "contain"
  | bound => "bound"
  | startMatch => "match"
  | regexMatch => "regex"
  | range => "range"
  | aggregateFunction => "aggregate_function"
  | temporalFunction => "temporal_function"
  | unsupported => "unsupported"

/-- The kinds whose name a clause gives in full. -/
def named : List FilterKind := [nearby, within, contain, bound, startMatch, regexMatch, range]

/-- A name without blanks around it, in lower case. -/
def plainName (name : String) : String := lowerCase (trim name)

/-- The kind that a plain name stands for. -/
def ofPlainName (name : String) : FilterKind :=
  let s := name.toList
  if occursIn "function".toList s then
    if occursIn "temporal".toList s || occursIn "date".toList s then temporalFunction
    else aggregateFunction
  else (named.find? (·.label == name)).getD unsupported

/-- The name of a filter as a text; a value that does not count as given is no name. -/
def nameOf (value : Json) : Except Fault String :=
  match value with
  | .str s => .ok s
  | other => if other.isSet then .error .noMembers else .ok ""

/-- The kind that a name stands for. -/
def of (name : Json) : Except Fault FilterKind :=
  (nameOf name).map fun s => ofPlainName (plainName s)

/-- Whether a kind compares with the value of its clause. -/
def needsValue (k : FilterKind) : Bool :=
  k == contain || k == startMatch || k == regexMatch || k == range

end FilterKind

/-- Words for comparisons. -/
def comparisonWords : List (String × String) :=
  [("gt", ">"), ("gte", ">="), ("ge", ">="), ("lt", "<"), ("lte", "<="), ("le", "<="), ("eq", "="),
   ("ne", "!="), ("neq", "!=")]

/-- The symbol of a comparison; what is not a known word is left as it is, without blanks around. -/
def comparisonSymbol (comparison : String) : String :=
  let op := trim comparison
  (comparisonWords.lookup (lowerCase op)).getD op

end SparqlSelect
