import SparqlSelect.Failure
import SparqlSelect.Json.Reader

/-!
# The text of scalars

A scalar may go over several lines. Its line breaks are folded: a single break between two lines is
read as a space, and of several the first is dropped. Blanks around the breaks do not count.

* `Yaml.plainText` — a scalar without quotes; it ends before a colon that a gap follows, before a
  comment, and before a line that does not stand deep enough.
* `Yaml.quotedText` — a scalar in single or in double quotes.
-/

namespace SparqlSelect.Yaml

/-- Whether a character ends a line; carriage returns have been replaced before. -/
def isBreak (c : Char) : Bool := c == '\n' || c == '\u2028' || c == '\u2029'

/-- The blanks inside a line. -/
def isInlineBlank (c : Char) : Bool := c == ' ' || c == '\t'

/-- Whether a word ends here. -/
def atWordEnd : List Char → Bool
  | [] => true
  | c :: _ => isInlineBlank c || isBreak c

/-- How breaks between two words are read. -/
def folded : List Char → List Char
  | ['\n'] => [' ']
  | '\n' :: further => further
  | breaks => breaks

/-- The breaks at the start of a text, blanks among them and after them passed over; the number of
blanks before what follows; and what follows. -/
def leadingBreaks (blank : Char → Bool) (column : Nat) : List Char → List Char × Nat × List Char
  | [] => ([], column, [])
  | c :: rest =>
    if isBreak c then
      let (breaks, column, next) := leadingBreaks blank 0 rest
      (c :: breaks, column, next)
    else if blank c then leadingBreaks blank (column + 1) rest
    else ([], column, c :: rest)

-- ---------------------------------------------------------------------------
-- Plain text
-- ---------------------------------------------------------------------------

/-- Marks with which a plain scalar does not start. -/
def marks : List Char :=
  [',', '[', ']', '{', '}', '#', '&', '*', '!', '|', '>', '\'', '"', '%', '@', '\x60']

/-- Whether a plain scalar can start here. -/
def startsPlain : List Char → Bool
  | [] => false
  | c :: rest =>
    if c == '-' || c == '?' || c == ':' then !atWordEnd rest
    else !marks.contains c && !isInlineBlank c && !isBreak c

/-- How far a plain scalar goes on its line, with the spaces after it. -/
def plainLength : List Char → Nat
  | [] => 0
  | c :: rest =>
    if c == '\t' || isBreak c || (c == ':' && atWordEnd rest) ||
        (c == ' ' && rest.head? == some '#') then 0
    else plainLength rest + 1

/-- The part of a plain scalar on its first line, and the rest of the text. -/
def plainLine (s : List Char) : List Char × List Char :=
  let n := plainLength s
  (trimBoth (· == ' ') (s.take n), s.drop n)

/-- A plain scalar and the rest of the text. Further lines are read where they have a least column.
-/
def plainText : Nat → Option Nat → List Char → List Char × List Char
  | 0, _, s => ([], s)
  | fuel + 1, least, s =>
    let (line, rest) := plainLine s
    let (breaks, column, next) := leadingBreaks (· == ' ') 0 rest
    if !breaks.isEmpty && least.any (· ≤ column) && next.head? != some '#' &&
        !(plainLine next).1.isEmpty then
      let (further, rest) := plainText fuel least next
      (line ++ folded breaks ++ further, rest)
    else (line, rest)

-- ---------------------------------------------------------------------------
-- Quoted text
-- ---------------------------------------------------------------------------

/-- The escapes that stand for one given character. -/
def shortEscapes : List (Char × Char) :=
  [('0', '\x00'), ('a', '\x07'), ('b', '\x08'), ('t', '\t'), ('\t', '\t'), ('n', '\n'),
   ('v', '\x0b'), ('f', '\x0c'), ('r', '\r'), ('e', '\x1b'), (' ', ' '), ('"', '"'), ('/', '/'),
   ('\\', '\\'), ('N', '\u0085'), ('_', '\u00A0'), ('L', '\u2028'), ('P', '\u2029')]

/-- The escapes that give the code of a character, with the number of their digits. -/
def codeEscapes : List (Char × Nat) := [('x', 2), ('u', 4), ('U', 8)]

/-- The number that hexadecimal digits write. -/
def hexNumber? (s : List Char) : Option Nat :=
  s.foldlM (fun n c => (JsonText.hexValue? c).map (n * 16 + ·)) 0

/-- The character of a code, and the text after it. A code past the last character is a fault. -/
def codeCharacter (code : Nat) (rest : List Char) : Except Fault (Char × List Char) :=
  if code < 0x110000 then .ok (JsonText.characterOf code rest)
  else if code < 0x80000000 then .error .badForm
  else .error .tooLarge

/-- What an escape after its backslash stands for. At the end of a line it joins the next one. -/
def escaped : List Char → Except Fault (List Char × List Char)
  | [] => .error .badForm
  | c :: rest =>
    if isBreak c then
      let (breaks, _, next) := leadingBreaks isInlineBlank 0 rest
      .ok (breaks, next)
    else match shortEscapes.lookup c, codeEscapes.lookup c with
      | some e, _ => .ok ([e], rest)
      | none, some width =>
        match if rest.length < width then none else hexNumber? (rest.take width) with
        | some code => (codeCharacter code (rest.drop width)).map fun (e, rest) => ([e], rest)
        | none => .error .badForm
      | none, none => .error .badForm

/-- The part of a quoted scalar that is read next, `none` at its end. Inside single quotes two of
them stand for one. -/
def quotedPiece (double : Bool) (c : Char) (rest : List Char) :
    Except Fault (Option (List Char) × List Char) :=
  if isInlineBlank c || isBreak c then
    let blanks := (c :: rest).takeWhile isInlineBlank
    let after := (c :: rest).dropWhile isInlineBlank
    if after.head?.any isBreak then
      let (breaks, _, next) := leadingBreaks isInlineBlank 0 after
      .ok (some (folded breaks), next)
    else .ok (some blanks, after)
  else if double then
    if c == '"' then .ok (none, rest)
    else if c == '\\' then (escaped rest).map fun (e, rest) => (some e, rest)
    else .ok (some [c], rest)
  else if c != '\'' then .ok (some [c], rest)
  else match rest with
    | '\'' :: rest => .ok (some ['\''], rest)
    | rest => .ok (none, rest)

/-- A scalar after its opening quote and up to the closing one, and the rest of the text. -/
def quotedText (double : Bool) : Nat → List Char → Except Fault (List Char × List Char)
  | 0, _ | _, [] => .error .badForm
  | fuel + 1, c :: rest => do
    match ← quotedPiece double c rest with
    | (none, rest) => .ok ([], rest)
    | (some piece, rest) =>
      let (further, rest) ← quotedText double fuel rest
      .ok (piece ++ further, rest)

end SparqlSelect.Yaml
