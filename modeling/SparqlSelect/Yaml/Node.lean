import SparqlSelect.Failure
import SparqlSelect.Yaml.Text

/-!
# Documents

A document is a tree of scalars, lists and mappings. Lists and mappings have one entry a line and
show by indentation what belongs to an entry; empty ones may be written with a pair of brackets.
The names of a mapping are scalars of any kind, so `1` and `no` are not texts.

* `Yaml.read` — the tree of a text that holds one document.
-/

namespace SparqlSelect.Yaml

/-- The tree of a document; a quoted scalar is a text whatever its form. -/
inductive Node where
  | plain (text : String)
  | quoted (text : String)
  | list (items : List Node)
  | mapping (members : List (Node × Node))

-- ---------------------------------------------------------------------------
-- Places
-- ---------------------------------------------------------------------------

/-- A place in a document: the rest of its text, and its column where it is the first on a line. -/
structure Place where
  column : Option Nat
  rest : List Char

/-- The next place at which something is said. -/
def Place.next (column : Option Nat) (inComment : Bool) : List Char → Place
  | [] => ⟨column, []⟩
  | c :: rest =>
    if isBreak c then next (some 0) false rest
    else if inComment || c == '#' then next column true rest
    else if c == ' ' then next (column.map (· + 1)) false rest
    else ⟨column, c :: rest⟩

/-- The next place after something on the same line. -/
def after (s : List Char) : Place := .next none false s

/-- Whether a list goes on here. -/
def startsItem : List Char → Bool
  | '-' :: rest => atWordEnd rest
  | _ => false

-- ---------------------------------------------------------------------------
-- Scalars
-- ---------------------------------------------------------------------------

/-- A scalar or an empty collection, and the rest of the text. The further lines of a plain scalar
have a least column. -/
def scalar (least : Option Nat) (s : List Char) : Except Fault (Node × List Char) :=
  match s with
  | '\'' :: rest =>
    (quotedText false (rest.length + 1) rest).map fun (t, rest) => (.quoted (.ofList t), rest)
  | '"' :: rest =>
    (quotedText true (rest.length + 1) rest).map fun (t, rest) => (.quoted (.ofList t), rest)
  | '[' :: rest => match (after rest).rest with
    | ']' :: rest => .ok (.list [], rest)
    | _ => .error .badForm
  | '{' :: rest => match (after rest).rest with
    | '}' :: rest => .ok (.mapping [], rest)
    | _ => .error .badForm
  | s =>
    if startsPlain s then
      let (t, rest) := plainText (s.length + 1) least s
      .ok (.plain (.ofList t), rest)
    else .error .badForm

/-- The name of a member and the text after its colon, if a member starts here. -/
def memberName (s : List Char) : Except Fault (Option (Node × List Char)) := do
  let (name, rest) ← scalar none s
  match rest.dropWhile (· == ' ') with
  | ':' :: rest => .ok (if atWordEnd rest then some (name, rest) else none)
  | _ => .ok none

-- ---------------------------------------------------------------------------
-- Trees
-- ---------------------------------------------------------------------------

mutual

/-- The node that starts in a column, and the next place after it. The further lines of a plain
scalar have a least column. -/
def node : Nat → Nat → Nat → List Char → Except Fault (Node × Place)
  | 0, _, _, _ => .error .badForm
  | fuel + 1, least, column, s =>
    if startsItem s then
      (items fuel column s).map fun (items, place) => (.list items, place)
    else do
      match ← memberName s with
      | some _ => (members fuel column s).map fun (members, place) => (.mapping members, place)
      | none => (scalar (some least) s).map fun (found, rest) => (found, after rest)

/-- The items of a list in a column. What follows a dash on its line may be a collection. -/
def items : Nat → Nat → List Char → Except Fault (List Node × Place)
  | 0, _, _ => .error .badForm
  | fuel + 1, column, s => do
    let rest := s.drop 1
    let (item, place) ← match after rest with
      | ⟨none, c :: next⟩ =>
        node fuel (column + 1) (column + 1 + (rest.takeWhile (· == ' ')).length) (c :: next)
      | ⟨some own, c :: next⟩ =>
        if column < own then node fuel (column + 1) own (c :: next)
        else .ok (.plain "", ⟨some own, c :: next⟩)
      | place => .ok (.plain "", place)
    if place.column == some column && startsItem place.rest then
      (items fuel column place.rest).map fun (others, place) => (item :: others, place)
    else .ok ([item], place)

/-- The members of a mapping in a column. A list that belongs to a member may stand in the same
column; a collection has to start on a line of its own. -/
def members : Nat → Nat → List Char → Except Fault (List (Node × Node) × Place)
  | 0, _, _ => .error .badForm
  | fuel + 1, column, s => do
    let (name, rest) ← match ← memberName s with
      | some found => .ok found
      | none => .error .badForm
    let (value, place) ← match after rest with
      | ⟨none, c :: next⟩ =>
        (scalar (some (column + 1)) (c :: next)).map fun (found, rest) => (found, after rest)
      | ⟨some own, c :: next⟩ =>
        if column < own then node fuel (column + 1) own (c :: next)
        else if column == own && startsItem (c :: next) then
          (items fuel column (c :: next)).map fun (items, place) => (.list items, place)
        else .ok (.plain "", ⟨some own, c :: next⟩)
      | place => .ok (.plain "", place)
    if place.column == some column && !place.rest.isEmpty then
      (members fuel column place.rest).map fun (others, place) => ((name, value) :: others, place)
    else .ok ([(name, value)], place)

end

-- ---------------------------------------------------------------------------
-- Documents
-- ---------------------------------------------------------------------------

/-- A text with a line feed in place of each carriage return (with the line feed after it) and each
next-line character. -/
def withLineFeeds : List Char → List Char
  | '\r' :: '\n' :: rest => '\n' :: withLineFeeds rest
  | c :: rest => (if c == '\r' || c == '\u0085' then '\n' else c) :: withLineFeeds rest
  | [] => []

/-- Whether a character may stand in a document. -/
def isAllowed (c : Char) : Bool :=
  c == '\t' || c == '\n' || (0x20 ≤ c.toNat && c.toNat ≤ 0x7E) ||
    (0xA0 ≤ c.toNat && c != '\uFFFE' && c != '\uFFFF')

/-- Whether a line that starts here marks the beginning or the end of a document. -/
def isMarker : List Char → Bool
  | '-' :: '-' :: '-' :: rest => atWordEnd rest
  | '.' :: '.' :: '.' :: rest => atWordEnd rest
  | _ => false

/-- A text up to the first marker at the start of a line, and from there on. -/
def untilMarker (atLineStart : Bool) : List Char → List Char × List Char
  | [] => ([], [])
  | c :: rest =>
    if atLineStart && isMarker (c :: rest) then ([], c :: rest)
    else
      let (before, tail) := untilMarker (isBreak c) rest
      (c :: before, tail)

/-- Whether nothing is said in a text. -/
def isBare (s : List Char) : Bool := (Place.next (some 0) false s).rest.isEmpty

/-- What stands between the markers of a text that holds one document. -/
def body? (s : List Char) : Option (List Char) :=
  let (head, tail) := untilMarker true s
  let (body, tail) := match tail with
    | '-' :: _ => if isBare head then untilMarker false (tail.drop 3) else (head, tail)
    | _ => (head, tail)
  match tail with
  | [] => some body
  | '.' :: _ => if isBare (tail.drop 3) then some body else none
  | _ => none

/-- The tree of a text; nothing is a plain scalar without characters. A mark of the byte order at
the start is passed over. Two steps are spent for each character at most. -/
def read (text : String) : Except Fault Node := do
  let s := match withLineFeeds text.toList with
    | '\uFEFF' :: rest => rest
    | s => s
  match if s.all isAllowed then body? s else none with
  | none => .error .badForm
  | some body =>
    match Place.next (some 0) false body with
    | ⟨some column, c :: next⟩ =>
      let (found, place) ← node (2 * body.length + 2) 0 column (c :: next)
      if place.rest.isEmpty then .ok found else .error .badForm
    | _ => .ok (.plain "")

end SparqlSelect.Yaml
