import SparqlSelect.Json.Basic
import SparqlSelect.Json.Display
import SparqlSelect.Unicode.Case

/-!
# SELECT queries

A query is a tree. Its leaves, terms and expressions, are fragments: texts of the query language
that have been checked before they came here, so the tree knows only about structure.

A group carries an *origin*, the key of the observable it was built for. Whatever has to be added to
the pattern of an observable later on finds its group by that key.
-/

namespace SparqlSelect

/-- A triple pattern. -/
structure Triple where
  subject : String
  predicate : String
  object : String
deriving DecidableEq, Repr

/-- An expression and the variable that takes its value. -/
structure Binding where
  expression : String
  var : String
deriving DecidableEq, Repr

/-- The direction of a sort key. -/
inductive Direction where
  | ascending
  | descending
deriving DecidableEq, Repr

/-- The keyword of a direction. -/
def Direction.keyword : Direction → String
  | ascending => "ASC"
  | descending => "DESC"

/-- The direction that a value names, in any case; everything else means ascending. -/
def Direction.of (value : Json) : Direction :=
  if upperCase (trim value.displayIfSet) == "DESC" then descending else ascending

/-- The kinds of modifiers, in the order in which they are written. -/
inductive ModifierKind where
  | groupBy
  | orderBy
  | limit
deriving DecidableEq, Repr

/-- A solution modifier. A limit keeps the value it was given; see `Modifier.fault?`. -/
inductive Modifier where
  | groupBy (terms : List String)
  | orderBy (keys : List (String × Direction))
  | limit (count : Json)

/-- What a modifier modifies. -/
def Modifier.kind : Modifier → ModifierKind
  | groupBy _ => .groupBy
  | orderBy _ => .orderBy
  | limit _ => .limit

mutual

/-- An element of a group. -/
inductive Element where
  | triple (t : Triple)
  | filter (expression : String)
  | bind (b : Binding)
  | optional (body : Group)
  | union (branches : List Branch)
  | nested (branch : Branch)

/-- A group of elements, with the key it was built for. -/
structure Group where
  origin : Option String
  elements : List Element

/-- What can be joined by `UNION` or stand inside a group with braces of its own. -/
inductive Branch where
  | group (body : Group)
  | select (query : SelectQuery)

/-- A query: the names it may abbreviate IRIs by, the selected items (none means all), the pattern,
the modifiers in the order in which they were set, and whether equal solutions are merged. -/
structure SelectQuery where
  prefixes : List (Json × Json)
  projection : List String
  body : Group
  modifiers : List Modifier
  distinct : Bool

end

namespace Group

/-- A group without elements. -/
def empty (origin : Option String) : Group := ⟨origin, []⟩

/-- The group with one more element at its end. -/
def add (g : Group) (e : Element) : Group := { g with elements := g.elements ++ [e] }

/-- The group with an element right after the one at a position. -/
def insertAfter (g : Group) (position : Nat) (e : Element) : Group :=
  { g with elements := g.elements.take (position + 1) ++ e :: g.elements.drop (position + 1) }

/-- The triples among the elements themselves. -/
def triples (g : Group) : List Triple :=
  g.elements.filterMap fun | .triple t => some t | _ => none

/-- The bodies of the optional elements. -/
def optionals (g : Group) : List Group :=
  g.elements.filterMap fun | .optional body => some body | _ => none

/-- The filter expressions among the elements. -/
def filters (g : Group) : List String :=
  g.elements.filterMap fun | .filter e => some e | _ => none

/-- The bindings among the elements. -/
def binds (g : Group) : List Binding :=
  g.elements.filterMap fun | .bind b => some b | _ => none

/-- Whether there are no elements. -/
def isEmpty (g : Group) : Bool := g.elements.isEmpty

/-- The triples of a group are those among its elements. -/
theorem mem_triples_iff {g : Group} {t : Triple} : t ∈ g.triples ↔ .triple t ∈ g.elements := by
  rw [triples, List.mem_filterMap]
  constructor
  · rintro ⟨e, he, ht⟩
    cases e with
    | triple u =>
      cases ht
      exact he
    | _ => cases ht
  · exact fun h => ⟨_, h, rfl⟩

/-- The bindings of a group are those among its elements. -/
theorem mem_binds_iff {g : Group} {b : Binding} : b ∈ g.binds ↔ .bind b ∈ g.elements := by
  rw [binds, List.mem_filterMap]
  constructor
  · rintro ⟨e, he, hb⟩
    cases e with
    | bind d =>
      cases hb
      exact he
    | _ => cases hb
  · exact fun h => ⟨_, h, rfl⟩

@[simp] theorem elements_empty (origin : Option String) : (empty origin).elements = [] := rfl

@[simp] theorem elements_add (g : Group) (e : Element) : (g.add e).elements = g.elements ++ [e] :=
  rfl

@[simp] theorem origin_add (g : Group) (e : Element) : (g.add e).origin = g.origin := rfl

@[simp] theorem origin_insertAfter (g : Group) (position : Nat) (e : Element) :
    (g.insertAfter position e).origin = g.origin := rfl

/-- An element that is inserted is the only one that is new. -/
theorem mem_elements_insertAfter {g : Group} {position : Nat} {e f : Element} :
    f ∈ (g.insertAfter position e).elements ↔ f = e ∨ f ∈ g.elements := by
  have h := List.take_append_drop (position + 1) g.elements
  rw [show f ∈ g.elements ↔ f ∈ g.elements.take (position + 1) ++ g.elements.drop (position + 1) by
    rw [h]]
  simp only [insertAfter, List.mem_append, List.mem_cons]
  exact ⟨fun h => h.elim (fun h => .inr (.inl h)) (fun h => h.imp_right .inr),
    fun h => h.elim (fun h => .inr (.inl h)) (fun h => h.imp_right .inr)⟩

end Group

namespace SelectQuery

/-- A query for everything, with an empty pattern. -/
def empty : SelectQuery := ⟨[], [], .empty none, [], false⟩

/-- Whether everything is selected. -/
def selectsAll (q : SelectQuery) : Bool := q.projection.isEmpty

/-- The query that selects one more item, unless it selects that item already. -/
def project (q : SelectQuery) (item : String) : SelectQuery :=
  if q.projection.contains item then q
  else { q with projection := q.projection ++ [item] }

/-- The query with an element at the end of its pattern. -/
def add (q : SelectQuery) (e : Element) : SelectQuery := { q with body := q.body.add e }

/-- The query with a modifier in place of all others of its kind. -/
def setModifier (q : SelectQuery) (m : Modifier) : SelectQuery :=
  { q with modifiers := q.modifiers.filter (fun n => n.kind != m.kind) ++ [m] }

/-- The first modifier of a kind. -/
def modifier? (q : SelectQuery) (kind : ModifierKind) : Option Modifier :=
  q.modifiers.find? (·.kind == kind)

/-- Selecting an item selects it and nothing else that was not selected before. -/
theorem mem_projection_project {q : SelectQuery} {item s : String} :
    s ∈ (q.project item).projection ↔ s ∈ q.projection ∨ s = item := by
  unfold project
  split
  · rename_i h
    rw [List.contains_iff_mem] at h
    exact ⟨.inl, fun hs => hs.elim id fun e => e ▸ h⟩
  · simp

@[simp] theorem prefixes_project (q : SelectQuery) (item : String) :
    (q.project item).prefixes = q.prefixes := by
  unfold project
  split <;> rfl

@[simp] theorem body_project (q : SelectQuery) (item : String) :
    (q.project item).body = q.body := by
  unfold project
  split <;> rfl

@[simp] theorem modifiers_project (q : SelectQuery) (item : String) :
    (q.project item).modifiers = q.modifiers := by
  unfold project
  split <;> rfl

end SelectQuery

end SparqlSelect
