import SparqlSelect.Fragment.Token
import SparqlSelect.Pattern.Matching

/-!
# Literals, brackets and variables

Quoted texts and IRIs may hold any bracket, so brackets are counted after each of them has been
replaced by an underscore.

* `maskLiterals` — the replacement, from left to right.
* `bracketsBalanced` — whether no round bracket outside literals is left open or closed too often.
* `variablesIn` — the variables in a fragment, literals included, in order.
-/

namespace SparqlSelect

open Pattern

/-- Replaces the literals of a text by underscores; the first `skip` characters are dropped. -/
def maskFrom : Nat → List Char → List Char
  | _, [] => []
  | skip + 1, _ :: rest => maskFrom skip rest
  | 0, c :: rest =>
    match (Token.text ||| Token.iri).matchLength? (c :: rest) with
    | some (n + 1) => '_' :: maskFrom n rest
    | _ => c :: maskFrom 0 rest

/-- A text in which every literal is an underscore. -/
def maskLiterals (s : List Char) : List Char := maskFrom 0 s

/-- Whether brackets are balanced when `depth` of them are open. -/
def closes : Nat → List Char → Bool
  | depth, [] => depth == 0
  | depth, c :: rest =>
    if c == '(' then closes (depth + 1) rest
    else if c == ')' then
      match depth with
      | 0 => false
      | d + 1 => closes d rest
    else closes depth rest

/-- Whether the round brackets outside literals are balanced. -/
def bracketsBalanced (s : List Char) : Bool := closes 0 (maskLiterals s)

/-- The variables in a text, from left to right; the first `skip` characters are dropped. -/
def variablesFrom : Nat → List Char → List (List Char)
  | _, [] => []
  | skip + 1, _ :: rest => variablesFrom skip rest
  | 0, c :: rest =>
    match Token.var.matchLength? (c :: rest) with
    | some (n + 1) => (c :: rest).take (n + 1) :: variablesFrom n rest
    | _ => variablesFrom 0 rest

/-- The variables in a fragment, in order of appearance. -/
def variablesIn (fragment : String) : List String :=
  (variablesFrom 0 fragment.toList).map String.ofList

end SparqlSelect
