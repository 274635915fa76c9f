import SparqlSelect.Json.Convert
import SparqlSelect.Query.Basic

/-!
# The text of a query

Lines are indented by two spaces a level. Modifiers are written in the order of their kinds,
whatever the order in which they were set, and only the prefixes that the text uses are declared.

A query can be written unless a limit in it is not a number or the name of a prefix is not a text.
The lines themselves are defined for every query; `SelectQuery.fault?` says whether they may be
used.
-/

namespace SparqlSelect

/-- A line at a depth; above the outermost depth there is nothing to indent by. -/
def indented (depth : Int) (line : String) : String :=
  String.ofList (List.replicate (2 * depth.toNat) ' ') ++ line

/-- The number of a limit as it is written, nothing if there is no number. Any number is written;
one that was read from a text has at most 4300 digits. -/
def limitText (count : Json) : String :=
  match count.toInteger with
  | .ok n => toString n
  | .error _ => ""

namespace Modifier

/-- A modifier as it is written. -/
def text : Modifier → String
  | groupBy terms => "GROUP BY " ++ " ".intercalate terms
  | orderBy keys =>
    "ORDER BY " ++ " ".intercalate (keys.map fun (e, d) => d.keyword ++ "(" ++ e ++ ")")
  | limit count => "LIMIT " ++ limitText count

/-- Why a modifier cannot be written. -/
def fault? : Modifier → Option Fault
  | groupBy _ | orderBy _ => none
  | limit count =>
    match count.toInteger with
    | .ok _ => none
    | .error f => some f

/-- Modifiers in the order of their kinds, those of one kind in their own order. -/
def sorted (modifiers : List Modifier) : List Modifier :=
  modifiers.filter (·.kind == .groupBy) ++ modifiers.filter (·.kind == .orderBy) ++
    modifiers.filter (·.kind == .limit)

theorem mem_of_mem_sorted {modifiers : List Modifier} {m : Modifier} (h : m ∈ sorted modifiers) :
    m ∈ modifiers := by
  simp only [sorted, List.mem_append, List.mem_filter] at h
  rcases h with (h | h) | h <;> exact h.1

end Modifier

/-- A triple as it is written. -/
def Triple.text (t : Triple) : String := t.subject ++ " " ++ t.predicate ++ " " ++ t.object ++ " ."

/-- A binding as it is written. -/
def Binding.text (b : Binding) : String := "BIND(" ++ b.expression ++ " AS " ++ b.var ++ ")"

/-- The first line of a query. -/
def selectLine (projection : List String) (distinct : Bool) : String :=
  "SELECT " ++ (if distinct then "DISTINCT " else "") ++
    (if projection.isEmpty then "*" else " ".intercalate projection)

mutual

/-- The lines of an element. -/
def Element.lines (depth : Int) : Element → List String
  | .triple t => [indented depth t.text]
  | .filter e => [indented depth ("FILTER(" ++ e ++ ")")]
  | .bind b => [indented depth b.text]
  | .optional body =>
    indented depth "OPTIONAL \x7b" :: body.bodyLines (depth + 1) ++ [indented depth "\x7d"]
  | .union branches => Branch.unionLines depth branches
  | .nested branch => branch.lines depth

/-- The lines of a list of elements. -/
def Element.linesOfAll (depth : Int) : List Element → List String
  | [] => []
  | e :: rest => e.lines depth ++ Element.linesOfAll depth rest

/-- The lines of the elements of a group, without its braces. -/
def Group.bodyLines (depth : Int) : Group → List String
  | .mk _ elements => Element.linesOfAll depth elements

/-- The lines of branches with `UNION` between them. -/
def Branch.unionLines (depth : Int) : List Branch → List String
  | [] => []
  | b :: rest => b.lines depth ++ Branch.furtherLines depth rest

/-- The lines of branches with `UNION` before each of them. -/
def Branch.furtherLines (depth : Int) : List Branch → List String
  | [] => []
  | b :: rest => indented depth "UNION" :: b.lines depth ++ Branch.furtherLines depth rest

/-- The lines of a branch, in braces. -/
def Branch.lines (depth : Int) : Branch → List String
  | .group body => indented depth "\x7b" :: body.bodyLines (depth + 1) ++ [indented depth "\x7d"]
  | .select query => indented depth "\x7b" :: query.lines (depth + 1) ++ [indented depth "\x7d"]

/-- The lines of a query without its prefixes. -/
def SelectQuery.lines (depth : Int) : SelectQuery → List String
  | .mk _ projection body modifiers distinct =>
    indented depth (selectLine projection distinct) :: indented depth "WHERE \x7b" ::
      body.bodyLines (depth + 1) ++ [indented depth "\x7d"] ++
      (Modifier.sorted modifiers).map fun m => indented depth m.text

end

/-- The lines of a group, in braces. -/
def Group.lines (depth : Int) (g : Group) : List String := (Branch.group g).lines depth

/-- The text of a group, in braces. -/
def Group.text (g : Group) : String := "\n".intercalate (g.lines 0)

mutual

/-- The first reason why an element cannot be written. -/
def Element.fault? : Element → Option Fault
  | .triple _ | .filter _ | .bind _ => none
  | .optional body => body.fault?
  | .union branches => Branch.faultOfAll? branches
  | .nested branch => branch.fault?

/-- The first reason why one of several elements cannot be written. -/
def Element.faultOfAll? : List Element → Option Fault
  | [] => none
  | e :: rest => e.fault?.or (Element.faultOfAll? rest)

/-- The first reason why a group cannot be written. -/
def Group.fault? : Group → Option Fault
  | .mk _ elements => Element.faultOfAll? elements

/-- The first reason why one of several branches cannot be written. -/
def Branch.faultOfAll? : List Branch → Option Fault
  | [] => none
  | b :: rest => b.fault?.or (Branch.faultOfAll? rest)

/-- The first reason why a branch cannot be written. -/
def Branch.fault? : Branch → Option Fault
  | .group body => body.fault?
  | .select query => query.fault?

/-- The first reason why a query cannot be written, its prefixes apart. -/
def SelectQuery.fault? : SelectQuery → Option Fault
  | .mk _ _ body modifiers _ =>
    body.fault?.or ((Modifier.sorted modifiers).findSome? Modifier.fault?)

end

-- ---------------------------------------------------------------------------
-- Prefixes
-- ---------------------------------------------------------------------------

/-- Characters after which `name:` is a part of something longer. -/
def joinsName (c : Char) : Bool := isWordPart c || ['/', '#', '.', '-'].contains c

/-- Whether a word stands in a text, after a character (if any) that does not join it. -/
def standsIn (word : List Char) : Option Char → List Char → Bool
  | before, [] => word.isEmpty && !before.any joinsName
  | before, c :: rest =>
    (!before.any joinsName && word.isPrefixOf (c :: rest)) || standsIn word (some c) rest

/-- Whether a text uses a prefix. -/
def usesPrefix (body name : String) : Bool := standsIn (name.toList ++ [':']) none body.toList

/-- The prefixes that a text uses; the name of every prefix has to be a text. -/
def usedPrefixes (body : String) : List (Json × Json) → Except Fault (List (Json × Json))
  | [] => .ok []
  | (.str name, iri) :: rest => do
    let others ← usedPrefixes body rest
    .ok (if usesPrefix body name then (.str name, iri) :: others else others)
  | _ :: _ => .error .wrongType

/-- The declaration of a prefix. -/
def declaration (name iri : Json) : String :=
  "PREFIX " ++ name.display ++ ": <" ++ iri.display ++ ">"

/-- The text of a query without its prefixes. -/
def SelectQuery.bodyText (q : SelectQuery) : String := "\n".intercalate (q.lines 0)

/-- The text of a query. -/
def SelectQuery.text (q : SelectQuery) : Except Fault String :=
  match q.fault? with
  | some f => .error f
  | none => do
    let used ← usedPrefixes q.bodyText q.prefixes
    .ok ("\n".intercalate (used.map (fun (name, iri) => declaration name iri) ++ [q.bodyText]))

end SparqlSelect
