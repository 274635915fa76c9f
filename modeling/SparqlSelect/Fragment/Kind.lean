import SparqlSelect.Fragment.Comparison
import SparqlSelect.Fragment.Literals

/-!
# Kinds of fragments

A fragment may be put into a query at a place only if it is of one of the kinds that are allowed
there. `Kind.accepts` decides one kind. A nested comparison is read with a limit where it is checked
(`Kind.acceptsWithin`), so there it may remain undecided; the texts of all other kinds are looked
through without going into anything. The lists of kinds for the places of a query are given last.
-/

namespace SparqlSelect

/-- The kinds of fragments, in the order in which they are reported. -/
inductive Kind where
  | var
  | iri
  | prefixName
  | prefixedName
  | native
  | path
  | function
  | assignment
  | circle
  | polygon
  | comparison
  | nestedComparison
deriving DecidableEq, Repr

namespace Kind

/-- Every kind, in reporting order. -/
def all : List Kind :=
  [var, iri, prefixName, prefixedName, native, path, function, assignment, circle, polygon,
   comparison, nestedComparison]

/-- The name of a kind in messages. -/
def label : Kind → String
  | var => "variable"
  | iri => "IRI"
  | prefixName => "prefix"
  | prefixedName => "prefixed IRI"
  | native => "native"
  | path => "path"
  | function => "function"
  | assignment => "function with variable assignment"
  | circle => "complex expression"
  | polygon => "POLYGON literal"
  | comparison => "comparison expression"
  | nestedComparison => "nested comparison"

/-- The bit that stands for a kind in the number of a set of kinds. -/
def bit : Kind → Nat
  | var => 1
  | iri => 2
  | prefixName => 4
  | prefixedName => 8
  | native => 16
  | path => 32
  | function => 64
  | assignment => 128
  | circle => 512
  | polygon => 1024
  | comparison => 2048
  | nestedComparison => 4096

/-- The call in an assignment: what stands between the first bracket and the keyword. -/
def assignedCall (s : List Char) : List Char :=
  let beforeVariable :=
    (((s.reverse.drop 1).dropWhile isBlank).dropWhile (!isBlank ·)).dropWhile isBlank
  let call := ((beforeVariable.drop 2).dropWhile isBlank).reverse
  (call.drop 1).dropWhile isBlank

/-- Whether a text is of a kind. Calls have balanced brackets besides their pattern. -/
def accepts (k : Kind) (s : List Char) : Bool :=
  match k with
  | var => Token.var.accepts s
  | iri => Token.iri.accepts s
  | prefixName => Token.prefixName.accepts s
  | prefixedName => Token.prefixedName.accepts s
  | native => Token.native.accepts s
  | path => Token.path.accepts s
  | function => Token.function.accepts s && bracketsBalanced s
  | assignment => Token.assignment.accepts s && bracketsBalanced (assignedCall s)
  | circle => Token.circle.accepts s
  | polygon => Token.polygon.accepts s
  | comparison => isComparison s
  | nestedComparison => isNestedComparison s

/-- Whether a fragment is of one of some kinds. -/
def acceptsAny (kinds : List Kind) (fragment : String) : Bool :=
  kinds.any (·.accepts fragment.toList)

/-- Whether a text is of a kind, if that can be decided with brackets inside at most `limit` others.
-/
def acceptsWithin (limit : Nat) (k : Kind) (s : List Char) : Except Fault Bool :=
  match k with
  | nestedComparison => nestedWithin limit s
  | other => .ok (other.accepts s)

/-- Whether a fragment is of one of some kinds, if that can be decided within a limit; the kinds are
gone through up to the first that it is of. -/
def acceptsAnyWithin (limit : Nat) (kinds : List Kind) (fragment : String) : Except Fault Bool :=
  kinds.anyM (·.acceptsWithin limit fragment.toList)

/-- Every kind that a fragment is of, if that can be decided within a limit. -/
def kindsOf (limit : Nat) (fragment : String) : Except Fault (List Kind) :=
  all.filterM (·.acceptsWithin limit fragment.toList)

/-- The labels of a set of kinds, in reporting order. -/
def labels (kinds : List Kind) : List String := (all.filter (kinds.contains ·)).map label

/-- What the subject of a triple may be. -/
def forSubject : List Kind := [var, iri, prefixedName]

/-- What the predicate of a triple may be. -/
def forPredicate : List Kind := [var, iri, prefixedName, path]

/-- What the object of a triple may be. -/
def forObject : List Kind := [var, iri, prefixedName, native, circle, polygon]

/-- What may stand in a `FILTER`. -/
def forFilter : List Kind := [function, comparison, nestedComparison]

/-- What a `BIND` may compute. -/
def forBind : List Kind := [function]

/-- What may be selected. -/
def forSelect : List Kind := [var, assignment]

/-- What may be grouped by. -/
def forGrouping : List Kind := [var, iri, prefixedName]

end Kind

end SparqlSelect
