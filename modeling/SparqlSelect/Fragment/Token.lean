import SparqlSelect.Pattern.Basic

/-!
# Tokens of a query

The patterns of the terms that a request may put into a query. Those that are read without regard to
case take the class of letters as an argument: `CharClass.letter` where case counts, and
`anyCaseLetter`, which has four more members, where it does not.
-/

namespace SparqlSelect.Token

open Pattern CharClass

/-- The characters that are an ASCII letter in one of their cases: besides the letters the long s,
the Kelvin sign, the dotted capital i and the dotless small i. -/
def anyCaseLetter : CharClass := letter.plus ['\u017F', '\u212A', '\u0130', '\u0131']

/-- A letter or an underscore. -/
def nameStart (letters : CharClass) : CharClass := letters.plus ['_']

/-- `?name` or `$name`. -/
def varOf (letters : CharClass) : Pattern :=
  chars (anyOf '?' ['$']) ++ chars (nameStart letters) ++ many (chars .word)

/-- `?name` or `$name` in ASCII letters. -/
def var : Pattern := varOf letter

/-- What an IRI between angle brackets is made of. -/
def iriPart : CharClass :=
  outside (blank.plus ['<', '>', '"', '\x7b', '\x7d', '|', '^', '\x60', '\\'])

/-- `<iri>`. -/
def iri : Pattern := char '<' ++ many (chars iriPart) ++ char '>'

/-- A prefix without its colon. -/
def prefixNameOf (letters : CharClass) : Pattern :=
  chars letters ++ many (chars (word.plus ['-', '.']))

/-- A prefix without its colon, starting with an ASCII letter. -/
def prefixName : Pattern := prefixNameOf letter

/-- `prefix:local`, the prefix being optional. -/
def prefixedNameOf (letters : CharClass) : Pattern :=
  optional (prefixNameOf letters) ++ char ':' ++ oneOrMore (chars (word.plus ['-', '.', '%']))

/-- `prefix:local`. -/
def prefixedName : Pattern := prefixedNameOf letter

/-- Decimal digits, at least one. -/
def digits : Pattern := oneOrMore (chars .decimal)

/-- A plus or a minus, or neither. -/
def optionalSign : Pattern := optional (chars (anyOf '+' ['-']))

/-- A number with an optional sign, fraction and exponent. -/
def number : Pattern :=
  optionalSign ++
    ((digits ++ optional (char '.') ++ many (chars .decimal)) ||| (char '.' ++ digits)) ++
    optional (chars (anyOf 'e' ['E']) ++ optionalSign ++ digits)

/-- A text between two quotes of one kind: no line break, and any character but a line feed after a
backslash. -/
def quotedBy (quote : Char) : Pattern :=
  char quote ++
    many (chars (outside (anyOf quote ['\\', '\n', '\r'])) |||
      (char '\\' ++ chars (outside (one '\n')))) ++
    char quote

/-- A text in double or in single quotes. -/
def text : Pattern := quotedBy '"' ||| quotedBy '\''

/-- `@language-region`. -/
def languageOf (letters : CharClass) : Pattern :=
  char '@' ++ oneOrMore (chars letters) ++
    many (char '-' ++ oneOrMore (chars (either letters (between '0' '9'))))

/-- A fixed word of small letters, in any case. -/
def anyCase (w : List Char) : Pattern :=
  w.foldr
    (fun c p => chars (anyOf c (c.toUpper :: if c == 's' then ['\u017F'] else [])) ++ p) nothing

/-- A number, a truth value, or a text with an optional language or datatype. -/
def native : Pattern :=
  number ||| anyCase "true".toList ||| anyCase "false".toList |||
    (text ++ optional (languageOf anyCaseLetter |||
      (word ['^', '^'] ++ (iri ||| prefixedNameOf anyCaseLetter))))

/-- One step of a path, with its bracket, negation, inversion or repetition. -/
def pathStep : Pattern :=
  optional (chars (anyOf '^' ['!'])) ++ optional (char '(') ++ blanks ++
    (iri ||| prefixedName ||| char 'a') ++
    blanks ++ optional (char ')') ++ optional (chars (anyOf '*' ['+', '?']))

/-- Steps joined by slashes and bars. -/
def path : Pattern :=
  pathStep ++ many (blanks ++ chars (anyOf '/' ['|']) ++ blanks ++ pathStep)

/-- A name and a bracketed part on one line, possibly negated. -/
def functionOf (letters : CharClass) : Pattern :=
  optional (char '!') ++ blanks ++ chars (nameStart letters) ++ many (chars .word) ++ blanks ++
    char '(' ++ many (chars (outside (one '\n'))) ++ char ')'

/-- A function call. -/
def function : Pattern := functionOf letter

/-- `(function AS ?variable)`. -/
def assignment : Pattern :=
  char '(' ++ blanks ++ functionOf anyCaseLetter ++ someBlanks ++ anyCase ['a', 's'] ++
    someBlanks ++ varOf anyCaseLetter ++ blanks ++ char ')'

/-- A coordinate: digits with an optional minus and fraction. -/
def coordinate : Pattern := optional (char '-') ++ digits ++ optional (char '.' ++ digits)

/-- `(latitude longitude radius <unit>)`. -/
def circle : Pattern :=
  char '(' ++ blanks ++ coordinate ++ someBlanks ++ coordinate ++ someBlanks ++ coordinate ++
    someBlanks ++ char '<' ++ oneOrMore (chars (outside (blank.plus ['>']))) ++ char '>' ++
    blanks ++ char ')'

/-- Two coordinates. -/
def point : Pattern := coordinate ++ someBlanks ++ coordinate

/-- `"POLYGON((x y, …))"^^geo:wktLiteral`. -/
def polygon : Pattern :=
  word "\"POLYGON((".toList ++ blanks ++ point ++ many (blanks ++ char ',' ++ blanks ++ point) ++
    blanks ++ word "))\"^^geo:wktLiteral".toList

/-- An operator that compares. -/
def comparator : Pattern :=
  word ['<', '='] ||| word ['>', '='] ||| word ['!', '='] ||| char '=' ||| char '<' ||| char '>'

/-- A text with a datatype, blanks being allowed around the mark between them. -/
def typedText : Pattern :=
  text ++ blanks ++ word ['^', '^'] ++ blanks ++ (iri ||| prefixedName)

/-- An operator that joins comparisons. -/
def connective : Pattern := word ['|', '|'] ||| word ['&', '&']

end SparqlSelect.Token
