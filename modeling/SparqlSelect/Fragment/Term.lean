import SparqlSelect.Json.Convert
import SparqlSelect.Pattern.Matching

/-!
# Terms

A request may give an IRI bare. It is put between angle brackets before it goes into a query; all
other terms are left as they are. A datatype is written with a prefix instead.

* `bracketUrl` — a term as it goes into a query.
* `abbreviateDatatype` — a datatype as a prefixed name.
-/

namespace SparqlSelect

open Pattern CharClass

/-- Whether a text, or the text before a line feed at its end, matches. -/
def Pattern.acceptsLine (p : Pattern) (s : List Char) : Bool :=
  p.accepts s || (s.getLast? == some '\n' && p.accepts s.dropLast)

/-- A scheme, `://`, and neither blanks nor angle brackets nor double quotes. -/
def Token.url : Pattern :=
  chars letter ++ many (chars ((either letter (between '0' '9')).plus ['+', '.', '-'])) ++
    word [':', '/', '/'] ++ oneOrMore (chars (outside (blank.plus ['<', '>', '"'])))

/-- A prefix, a colon and a local name without a percent sign. -/
def Token.plainPrefixedName : Pattern :=
  Token.prefixName ++ char ':' ++ oneOrMore (chars (CharClass.word.plus ['-', '.']))

/-- A bare URL in angle brackets, any other term as it is. -/
def bracketUrl (term : String) : String :=
  if Token.url.acceptsLine term.toList then "<" ++ term ++ ">" else term

/-- A term given as a value, which has to be a text. -/
def termOf : Json → Except Fault String
  | .str s => .ok (bracketUrl s)
  | _ => .error .wrongType

/-- Whether a term is marked as a variable. -/
def isVariableTerm (term : String) : Bool :=
  match term.toList with
  | c :: _ => c == '?' || c == '$'
  | [] => false

/-- Whether a text stands somewhere inside another. -/
def occursIn (w : List Char) : List Char → Bool
  | [] => w.isEmpty
  | c :: rest => w.isPrefixOf (c :: rest) || occursIn w rest

/-- The place of the last occurrence of a character. -/
def lastPlace? (c : Char) : List Char → Option Nat
  | [] => none
  | d :: rest =>
    match lastPlace? c rest with
    | some place => some (place + 1)
    | none => if d == c then some 0 else none

/-- What follows the last `#` of an IRI if that comes after the last `/`, else what follows the last
`/`; all of it if it has neither. -/
def localName (iri : List Char) : List Char :=
  match lastPlace? '#' iri, lastPlace? '/' iri with
  | some hash, some slash => iri.drop ((if slash < hash then hash else slash) + 1)
  | some place, none | none, some place => iri.drop (place + 1)
  | none, none => iri

/-- A datatype as a prefixed name: one that has a prefix already is left as it is. -/
def abbreviateDatatype (datatype namePrefix : String) : String :=
  let s := datatype.toList
  if Token.plainPrefixedName.acceptsLine s && !occursIn ['/', '/'] s then datatype
  else namePrefix ++ ":" ++ String.ofList (localName s)

/-- A datatype given as a value, which has to be a text. -/
def abbreviate (datatype namePrefix : Json) : Except Fault String :=
  match datatype with
  | .str s => .ok (abbreviateDatatype s namePrefix.display)
  | _ => .error .wrongType

end SparqlSelect
