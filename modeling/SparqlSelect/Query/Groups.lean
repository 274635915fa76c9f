import SparqlSelect.Fragment.Literals
import SparqlSelect.Query.Basic

/-!
# Groups inside a query

* `Group.all` — a group and every group inside it, each before the groups that it holds.
* `Group.ofOrigin?` — the first of them that was built for a key.
* `Group.updateOrigin` — that group replaced, all else as it was.
* `Group.variables` — what the triples and bindings of all of them mention.
-/

namespace SparqlSelect

mutual

/-- A group and every group inside it. -/
def Group.all : Group → List Group
  | .mk origin elements => .mk origin elements :: Element.groupsOfAll elements

/-- The groups inside a list of elements. -/
def Element.groupsOfAll : List Element → List Group
  | [] => []
  | e :: rest => e.groups ++ Element.groupsOfAll rest

/-- The groups inside an element. -/
def Element.groups : Element → List Group
  | .triple _ | .filter _ | .bind _ => []
  | .optional body => body.all
  | .union branches => Branch.groupsOfAll branches
  | .nested branch => branch.groups

/-- The groups inside a list of branches. -/
def Branch.groupsOfAll : List Branch → List Group
  | [] => []
  | b :: rest => b.groups ++ Branch.groupsOfAll rest

/-- The groups inside a branch. -/
def Branch.groups : Branch → List Group
  | .group body => body.all
  | .select query => query.groups

/-- The groups inside a query. -/
def SelectQuery.groups : SelectQuery → List Group
  | .mk _ _ body _ _ => body.all

end

/-- The first group that was built for a key. -/
def Group.ofOrigin? (g : Group) (origin : Option String) : Option Group :=
  g.all.find? (·.origin == origin)

mutual

/-- Replaces the first group built for a key; `none` if there is none. -/
def Group.update? (origin : Option String) (f : Group → Group) : Group → Option Group
  | .mk o elements =>
    if o == origin then some (f (.mk o elements))
    else (Element.updateAll? origin f elements).map (.mk o)

/-- Replaces the first group built for a key in a list of elements. -/
def Element.updateAll? (origin : Option String) (f : Group → Group) :
    List Element → Option (List Element)
  | [] => none
  | e :: rest =>
    match e.update? origin f with
    | some e' => some (e' :: rest)
    | none => (Element.updateAll? origin f rest).map (e :: ·)

/-- Replaces the first group built for a key in an element. -/
def Element.update? (origin : Option String) (f : Group → Group) : Element → Option Element
  | .triple _ | .filter _ | .bind _ => none
  | .optional body => (body.update? origin f).map .optional
  | .union branches => (Branch.updateAll? origin f branches).map .union
  | .nested branch => (branch.update? origin f).map .nested

/-- Replaces the first group built for a key in a list of branches. -/
def Branch.updateAll? (origin : Option String) (f : Group → Group) :
    List Branch → Option (List Branch)
  | [] => none
  | b :: rest =>
    match b.update? origin f with
    | some b' => some (b' :: rest)
    | none => (Branch.updateAll? origin f rest).map (b :: ·)

/-- Replaces the first group built for a key in a branch. -/
def Branch.update? (origin : Option String) (f : Group → Group) : Branch → Option Branch
  | .group body => (body.update? origin f).map .group
  | .select query => (query.update? origin f).map .select

/-- Replaces the first group built for a key in a query. -/
def SelectQuery.update? (origin : Option String) (f : Group → Group) :
    SelectQuery → Option SelectQuery
  | .mk prefixes projection body modifiers distinct =>
    (body.update? origin f).map fun body => .mk prefixes projection body modifiers distinct

end

/-- A group in which the first group built for a key is replaced, if there is one. -/
def Group.updateOrigin (g : Group) (origin : Option String) (f : Group → Group) : Group :=
  (g.update? origin f).getD g

/-- The variables that a triple mentions. -/
def Triple.variables (t : Triple) : List String :=
  variablesIn t.subject ++ variablesIn t.predicate ++ variablesIn t.object

/-- The variables of the triples and the variables of the bindings in a group and inside it. -/
def Group.variables (g : Group) : List String :=
  g.all.flatMap fun h => h.triples.flatMap Triple.variables ++ h.binds.map (·.var)

end SparqlSelect
