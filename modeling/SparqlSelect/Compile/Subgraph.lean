import SparqlSelect.Compile.Draft
import SparqlSelect.Filter.Range
import SparqlSelect.Filter.Translation

/-!
# The pattern of an observable

An observable gives one group: its triple, then for each of its specs the triple of the spec and the
conditions of its clauses, and at the end the geospatial alternatives of all specs in one union. The
group's origin is the key of the observable.

* `Settings.subgraph` — the group and the modifiers of an observable.
* `Subgraph.asBranch` — the group by itself, or a sub-query if there are modifiers.
-/

namespace SparqlSelect

/-- The group of an observable and its own modifiers. -/
structure Subgraph where
  group : Group
  modifiers : List Modifier

/-- The group by itself, or as the pattern of a sub-query that carries the modifiers. -/
def Subgraph.asBranch (s : Subgraph) : Branch :=
  if s.modifiers.isEmpty then .group s.group
  else .select { SelectQuery.empty with body := s.group, modifiers := s.modifiers }

/-- What has been written for the specs of an observable so far. -/
structure Progress where
  draft : Draft
  /-- The alternatives that go into one union at the end. -/
  branches : List Branch

/-- What has been written for one spec so far, with the bounds that are merged after its clauses. -/
structure SpecProgress extends Progress where
  bounds : List Bound

/-- A step on the draft. -/
def Progress.write (p : Progress) (step : Draft → Except Failure Draft) : Except Failure Progress :=
  (step p.draft).map fun draft => { p with draft }

/-- Writes a geospatial triple, or keeps it as an alternative. -/
def Progress.place (p : Progress) (c : Clause) (subject function : String) (fragment : String) :
    Except Failure Progress :=
  if c.isUnion then
    ((Draft.start none).triple (.str subject) (.str function) (.str fragment)).map fun d =>
      { p with branches := p.branches ++ [.group d.group] }
  else p.write (·.also (.str subject) (.str function) (.str fragment))

/-- Writes what a clause on a geospatial function gives, if it gives anything. -/
def Settings.placeClause (s : Settings) (spec : FilterSpec) (subject : String) (p : Progress)
    (c : Clause) : Traced Progress := do
  match ← s.translate c none spec.datatype with
  | none => return p
  | some fragment => do
    let function ← Fault.raise (termOf spec.uri)
    p.place c subject function fragment

/-- The name of the function that a clause asks for. -/
def Clause.functionName (c : Clause) : String :=
  upperCase (trim (if c.value.isSet then c.value.display else c.comparison))

/-- Notes the function that a clause asks for, or that its name or its variable is missing. -/
def requestFunction (category : FunctionCategory) (spec : FilterSpec) (o : Observable)
    (key : String) (c : Clause) : Traced Unit :=
  match spec.var with
  | some var =>
    if c.functionName == "" then ignored
    else Traced.note (.requested {
      category
      function := c.functionName
      var := var.display
      uri := spec.uri.display
      subject := o.subject
      predicate := o.predicate
      object := o.object
      key })
  | none => ignored
where
  /-- The message on a clause that asks for nothing that can be computed. -/
  ignored : Traced Unit := Traced.log .warning
    ("Ignoring function filter on " ++ spec.uri.display ++ ": missing function name or variable")

/-- How the function is computed that a kind asks for, if it asks for one. -/
def FilterKind.category? : FilterKind → Option FunctionCategory
  | .aggregateFunction => some .aggregate
  | .temporalFunction => some .temporal
  | _ => none

/-- Writes the condition that a clause gives, or keeps it if it is a bound. -/
def Settings.constrain (s : Settings) (spec : FilterSpec) (kind : FilterKind) (p : SpecProgress)
    (c : Clause) : Traced SpecProgress := do
  match ← s.translate c spec.var spec.datatype with
  | none => return p
  | some fragment =>
    if kind == .range then
      return { p with bounds := p.bounds ++ [⟨c.value, comparisonSymbol c.comparison, fragment⟩] }
    else
      let done ← p.toProgress.write (·.filter s.nesting (.str fragment))
      return { p with toProgress := done }

/-- Writes what a clause gives: a condition, a bound that is kept, or the note of a function. -/
def Settings.applyClause (s : Settings) (spec : FilterSpec) (o : Observable) (key : String)
    (p : SpecProgress) (c : Clause) : Traced SpecProgress := do
  if !c.isSelected then return p
  if ← Fault.raise (s.isGeoFunction spec.uri) then
    let done ← s.placeClause spec (bracketUrl o.subject) p.toProgress c
    return { p with toProgress := done }
  let kind ← Fault.raise (FilterKind.of c.name)
  match kind.category? with
  | some category => do
    requestFunction category spec o key c
    return p
  | none => s.constrain spec kind p c

/-- Writes the triple of a spec, if it has a variable. -/
def FilterSpec.writeTriple (spec : FilterSpec) (subject predicate : String) (d : Draft) :
    Except Failure Draft :=
  match spec.var with
  | none => .ok d
  | some var =>
    if spec.isOptional then d.optional (.str subject) (.str predicate) var
    else d.also (.str subject) (.str predicate) var

/-- Notes the variable of a spec, if it is to be selected. -/
def FilterSpec.noteSelected (spec : FilterSpec) : Traced Unit :=
  match spec.var with
  | some var => if spec.isSelectable then Traced.note (.selected var.display) else pure ()
  | none => pure ()

/-- Writes the merged expression of the bounds of a spec, if there is one. -/
def SpecProgress.writeBounds (limit : Nat) (p : SpecProgress) : Traced Progress := do
  if p.bounds.isEmpty then return p.toProgress
  match ← mergeBounds p.bounds with
  | none => return p.toProgress
  | some e => p.toProgress.write (·.filter limit (.str e))

/-- Writes a spec: its triple, its conditions, and the merged expression of its bounds. -/
def Settings.applySpec (s : Settings) (o : Observable) (key : String) (p : Progress)
    (spec : FilterSpec) : Traced Progress := do
  let predicate ← Fault.raise (termOf spec.uri)
  let p ← p.write (spec.writeTriple (bracketUrl o.subject) predicate)
  spec.noteSelected
  let done ← spec.clauses.foldlM (s.applyClause spec o key) { p with bounds := [] }
  done.writeBounds s.nesting

/-- What an observable is sorted by, with the direction. -/
def Observable.sort? (o : Observable) : Option (String × Json) :=
  match o.sortKey with
  | some key => if key == "" then none else some (key, o.sortDirection)
  | none => none

/-- The modifiers of an observable. -/
def Observable.modifiers (o : Observable) : Except Failure (List Modifier) :=
  modifiersOf o.sort? o.limit

/-- The terms of an observable in the order of its slots. -/
def Observable.terms (o : Observable) : List String := [o.subject, o.predicate, o.object]

/-- The group and the modifiers of an observable of a request. -/
def Settings.subgraph (s : Settings) (r : Request) (o : Observable) : Traced Subgraph := do
  (o.terms.filter isVariableTerm).forM fun v => Traced.note (.selected v)
  let key := o.key r.keys
  let draft ← (Draft.start (some key)).triple (.str (bracketUrl o.subject))
    (.str (bracketUrl o.predicate)) (.str (bracketUrl o.object))
  let done ← (r.specsOf key).foldlM (s.applySpec o key) ⟨draft, []⟩
  let group := (done.draft.union done.branches).group
  let modifiers ← o.modifiers
  Traced.log .debug ("Built subgraph for key " ++ key ++ ": " ++ toString group.elements.length ++
    " elements, " ++ toString modifiers.length ++ " modifiers")
  return { group, modifiers }

end SparqlSelect
