import SparqlSelect.Compile.Location
import SparqlSelect.Proofs.Request.Members
import SparqlSelect.Proofs.Traced.Relation

/-!
# A place in a request

The clauses of a spec stand deep inside a request: in a spec, which stands among the specs of a key.
The value of a clause stands deeper still: in the input of a clause, which stands among the clauses.
A place is everything around such a value. Requests that differ only in that value are a place
filled twice.

Reading a request goes down to the place in the same way whatever fills it, so two fillings are both
rejected, or give requests that differ in one spec, or in the value of one clause of it.

* `EntryPlace`, `SpecHole`, `SpecPlace`, `ClausePlace` — a request without the specs of a key,
  without a spec, without the clauses of one, or without the value of one clause.
* `readSpec_clauses` — specs that differ in their clauses.
* `EntryPlace.readRequest_alike`, `SpecHole.readRequest_alike`, `SpecPlace.readRequest_alike` — the
  requests, if the specs of the place are known.
* `ClausePlace.readClause_alike`, `ClausePlace.readSpec_alike` — what is read at the place.
* `ClausePlace.readRequest_alike` — the requests.
-/

namespace SparqlSelect

open Json

/-- The IRI that a spec has if it names none itself: the name of its entry, if it has one. -/
def Json.Frame.uri : Frame → Json
  | .item _ _ => .null
  | .member _ name _ => .str name

/-- A request without the specs of one key. -/
structure EntryPlace where
  request : Field "filters"
  key : String
  entries : Field key

/-- The request with the specs of the key. -/
def EntryPlace.requestWith (p : EntryPlace) (specs : Json) : Json :=
  p.request.fill (p.entries.fill specs)

/-- A request without one of its specs. -/
structure SpecHole where
  request : Field "filters"
  key : String
  entries : Field key
  specs : Frame

/-- The request with the spec. -/
def SpecHole.requestWith (p : SpecHole) (spec : Json) : Json :=
  p.request.fill (p.entries.fill (p.specs.fill spec))

/-- The place of the specs around the spec. -/
def SpecHole.around (p : SpecHole) : EntryPlace := ⟨p.request, p.key, p.entries⟩

/-- A request without the clauses of one spec. -/
structure SpecPlace where
  request : Field "filters"
  key : String
  entries : Field key
  specs : Frame
  spec : Field "filters"

namespace SpecPlace

/-- The spec with its clauses. -/
def specWith (p : SpecPlace) (clauses : Json) : Json := p.spec.fill clauses

/-- The place of the spec. -/
def hole (p : SpecPlace) : SpecHole := ⟨p.request, p.key, p.entries, p.specs⟩

/-- The request with the clauses of the spec. -/
def requestWith (p : SpecPlace) (clauses : Json) : Json :=
  p.request.fill (p.entries.fill (p.specs.fill (p.specWith clauses)))

end SpecPlace

/-- A request without the value of one clause of one spec. -/
structure ClausePlace where
  request : Field "filters"
  key : String
  entries : Field key
  specs : Frame
  spec : Field "filters"
  clauses : Frame
  clause : Field "input"
  input : Field "value"

namespace ClausePlace

/-- The clause with a value. -/
def clauseWith (p : ClausePlace) (value : Json) : Json := p.clause.fill (p.input.fill value)

/-- The spec of the clause with a value. -/
def specWith (p : ClausePlace) (value : Json) : Json :=
  p.spec.fill (p.clauses.fill (p.clauseWith value))

/-- The request with a value. -/
def requestWith (p : ClausePlace) (value : Json) : Json :=
  p.request.fill (p.entries.fill (p.specs.fill (p.specWith value)))

end ClausePlace

-- ---------------------------------------------------------------------------
-- Lists that are read one by one
-- ---------------------------------------------------------------------------

section

variable {α : Type} {S : α → α → Prop}

/-- Two lists that differ in one entry. -/
theorem forall₂_hole {before after : List α} {a b : α} (hRefl : ∀ a, S a a) (h : S a b) :
    List.Forall₂ S (before ++ a :: after) (before ++ b :: after) :=
  List.rel_append (List.forall₂_same.mpr fun a _ => hRefl a)
    (.cons h (List.forall₂_same.mpr fun a _ => hRefl a))

/-- Lists that are alike item by item are read alike. -/
theorem readItems_alike {read : Json → String → Except Failure α} {items items' : List Json}
    (h : List.Forall₂ (fun item item' => ∀ path, Alike S (read item path) (read item' path))
      items items') (path : String) :
    Alike (List.Forall₂ S) (readItems read path items) (readItems read path items') := by
  have hIndexed (n : Nat) : List.Forall₂
      (fun x y => x.2 = y.2 ∧ ∀ path, Alike S (read x.1 path) (read y.1 path))
      (items.zipIdx n) (items'.zipIdx n) := by
    induction h generalizing n with
    | nil => exact .nil
    | cons hItem _ ih => exact .cons ⟨rfl, hItem⟩ (ih (n + 1))
  refine Alike.mapM (hIndexed 0) ?_
  rintro ⟨item, i⟩ ⟨item', i'⟩ ⟨hSame, hRead⟩
  dsimp only at hSame hRead
  subst hSame
  exact hRead (itemPath path i)

end

-- ---------------------------------------------------------------------------
-- Specs that differ in clauses
-- ---------------------------------------------------------------------------

/-- Objects that differ in their clauses only are read to specs that differ in their clauses
only. -/
theorem readSpec_clauses {S : List Clause → List Clause → Prop}
    {members members' : List (String × Json)} {items items' : List Json}
    (hOther : ∀ name, name ≠ "filters" → member name members' = member name members)
    (hItems : clauseItems (member "filters" members) = .ok items)
    (hItems' : clauseItems (member "filters" members') = .ok items')
    (hClauses : ∀ path, Alike S (readItems Clause.read path items)
      (readItems Clause.read path items')) (uri : Json) (path : String) :
    Alike (fun spec spec' => S spec.clauses spec'.clauses ∧
        spec.uri = orElseEmpty (member "uri" members) uri ∧
        spec' = { spec with clauses := spec'.clauses })
      (FilterSpec.read uri (.obj members) path) (FilterSpec.read uri (.obj members') path) := by
  rw [FilterSpec.read, FilterSpec.read]
  simp only [hOther "uri" (by decide), hOther "predicateName" (by decide),
    hOther "isOptional" (by decide), hOther "isSelectable" (by decide),
    hOther "datatype" (by decide), hItems, hItems']
  split
  · exact .failed _ _
  · exact (hClauses _).bind fun clauses clauses' hRelated => .ok ⟨hRelated, rfl, rfl⟩

-- ---------------------------------------------------------------------------
-- Requests that differ in specs
-- ---------------------------------------------------------------------------

/-- Requests that differ only in specs that a relation connects one by one. -/
structure Request.Related (S : FilterSpec → FilterSpec → Prop) (r r' : Request) : Prop where
  same : r' = { r with filters := r'.filters }
  filters : List.Forall₂
    (fun entry entry' => entry.1 = entry'.1 ∧ List.Forall₂ S entry.2 entry'.2) r.filters r'.filters

theorem Request.Related.mono {S S' : FilterSpec → FilterSpec → Prop} {r r' : Request}
    (hS : ∀ spec spec', S spec spec' → S' spec spec') (h : r.Related S r') : r.Related S' r' :=
  ⟨h.same, h.filters.imp fun _ _ ⟨hName, hSpecs⟩ => ⟨hName, hSpecs.imp hS⟩⟩

/-- Whether a request may search by place does not depend on what its specs are. -/
theorem Request.Related.hasLocationFilters {S : FilterSpec → FilterSpec → Prop} {r r' : Request}
    (h : r.Related S r') : r'.hasLocationFilters = r.hasLocationFilters := by
  have hFilters := h.filters
  unfold Request.hasLocationFilters
  generalize r.filters = filters at hFilters
  generalize r'.filters = filters' at hFilters
  cases hFilters with
  | nil => rfl
  | @cons entry entry' _ _ hEntry _ =>
    obtain ⟨name, specs⟩ := entry
    obtain ⟨name', specs'⟩ := entry'
    obtain ⟨-, hSpecs⟩ := hEntry
    cases hSpecs <;> rfl

/-- The specs with the terms that they are placed at are related one by one. -/
theorem Request.Related.placedSpecs {S : FilterSpec → FilterSpec → Prop} {r r' : Request}
    (h : r.Related S r') :
    List.Forall₂ (fun x y => x.1 = y.1 ∧ S x.2 y.2) r.placedSpecs r'.placedSpecs := by
  refine List.rel_flatMap h.filters ?_
  rintro ⟨name, specs⟩ ⟨name', specs'⟩ ⟨hName, hSpecs⟩
  dsimp only at hName hSpecs
  subst hName
  exact List.rel_map (fun _ _ hSpec => ⟨rfl, hSpec⟩) hSpecs

/-- The specs of a key are related one by one. -/
theorem Request.Related.specsOf {S : FilterSpec → FilterSpec → Prop} {r r' : Request}
    (h : r.Related S r') (key : String) : List.Forall₂ S (r.specsOf key) (r'.specsOf key) := by
  have hFilters := h.filters
  unfold Request.specsOf
  generalize r.filters = filters at hFilters
  generalize r'.filters = filters' at hFilters
  -- induction on the entries: the first entry of the key is at the same place in both lists
  induction hFilters with
  | nil => exact .nil
  | @cons entry entry' _ _ hEntry _ ih =>
    obtain ⟨name, specs⟩ := entry
    obtain ⟨name', specs'⟩ := entry'
    obtain ⟨hName, hSpecs⟩ := hEntry
    dsimp only at hName hSpecs
    subst hName
    rw [List.lookup_cons, List.lookup_cons]
    split
    · exact hSpecs
    · exact ih

namespace EntryPlace

variable {p : EntryPlace} {w w' : Json} {S : FilterSpec → FilterSpec → Prop}

/-- Entries of the filters that are read alike. -/
def EntriesAlike (S : FilterSpec → FilterSpec → Prop) (entries entries' : List (String × Json)) :
    Prop :=
  List.Forall₂ (fun entry entry' : String × Json => entry.1 = entry'.1 ∧
    ∀ path, Alike (List.Forall₂ S) (readSpecs entry.2 path) (readSpecs entry'.2 path))
    entries entries'

theorem filterEntries_alike (hRefl : ∀ spec, S spec spec)
    (hSpecs : ∀ path, Alike (List.Forall₂ S) (readSpecs w path) (readSpecs w' path)) :
    Alike (EntriesAlike S) (filterEntries (p.request.members (p.entries.fill w)))
      (filterEntries (p.request.members (p.entries.fill w'))) := by
  rw [filterEntries, filterEntries, Field.member_self, Field.member_self, orElseEmpty,
    orElseEmpty, Field.isSet_fill, Field.isSet_fill]
  have hSame (specs : List FilterSpec) : List.Forall₂ S specs specs :=
    List.forall₂_same.mpr fun spec _ => hRefl spec
  exact .ok (forall₂_hole (fun m => ⟨rfl, fun _ => .refl hSame _⟩) ⟨rfl, hSpecs⟩)

/-- The requests are read alike if the specs of the key are. -/
theorem readRequest_alike (hRefl : ∀ spec, S spec spec)
    (hSpecs : ∀ path, Alike (List.Forall₂ S) (readSpecs w path) (readSpecs w' path)) :
    Alike (Request.Related S) (Request.read (p.requestWith w))
      (Request.read (p.requestWith w')) := by
  -- all other fields are the same in both requests
  have hOther (name : String) (h : name ≠ "filters") :=
    p.request.member_other (p.entries.fill w) (p.entries.fill w') name h
  change Alike _ (Request.read (.obj (p.request.members (p.entries.fill w))))
    (Request.read (.obj (p.request.members (p.entries.fill w'))))
  rw [Request.read, Request.read]
  simp only [hOther "observables" (by decide), hOther "observablesKeys" (by decide),
    hOther "limit" (by decide), hOther "sortBy" (by decide), hOther "sensorPattern" (by decide)]
  refine (filterEntries_alike hRefl hSpecs).bind fun entries entries' hEntries => ?_
  refine Alike.same _ fun items _ => Alike.same _ fun observables _ => Alike.same _ fun keys _ => ?_
  have hFilters : Alike
      (List.Forall₂ fun entry entry' => entry.1 = entry'.1 ∧ List.Forall₂ S entry.2 entry'.2)
      (entries.mapM readEntry) (entries'.mapM readEntry) := by
    refine Alike.mapM hEntries ?_
    rintro ⟨name, specs⟩ ⟨name', specs'⟩ ⟨hName, hRead⟩
    dsimp only at hName hRead
    subst hName
    exact (hRead _).map fun _ _ hSpecs => ⟨rfl, hSpecs⟩
  refine hFilters.bind fun filters filters' hBoth => ?_
  exact Alike.same _ fun limit _ => .ok ⟨rfl, hBoth⟩

end EntryPlace

namespace SpecHole

variable {p : SpecHole} {w w' : Json} {S : FilterSpec → FilterSpec → Prop}

/-- Lists or objects of specs that differ in one spec are read alike if the spec is. -/
theorem readSpecs_alike (hRefl : ∀ spec, S spec spec) (f : Frame)
    (hSpec : ∀ path, Alike S (FilterSpec.read f.uri w path) (FilterSpec.read f.uri w' path))
    (path : String) :
    Alike (List.Forall₂ S) (readSpecs (f.fill w) path) (readSpecs (f.fill w') path) := by
  unfold readSpecs
  rw [Frame.isSet_fill, Frame.isSet_fill]
  -- the hole is an item of a list or the value of a member; what is around it is read alike
  cases f with
  | item before after =>
    exact readItems_alike (forall₂_hole (fun spec path => .refl hRefl _) hSpec) path
  | member before name after =>
    have hMembers : List.Forall₂ (fun m m' : String × Json => m.1 = m'.1 ∧ ∀ path,
        Alike S (FilterSpec.read (.str m.1) m.2 path) (FilterSpec.read (.str m.1) m'.2 path))
        (before ++ (name, w) :: after) (before ++ (name, w') :: after) :=
      forall₂_hole (fun m => ⟨rfl, fun _ => .refl hRefl _⟩) ⟨rfl, hSpec⟩
    refine Alike.mapM hMembers ?_
    rintro ⟨name, spec⟩ ⟨name', spec'⟩ ⟨hName, hRead⟩
    dsimp only at hName hRead
    subst hName
    exact hRead _

/-- The requests are read alike if the specs are. -/
theorem readRequest_alike (hRefl : ∀ spec, S spec spec)
    (hSpec : ∀ path, Alike S (FilterSpec.read p.specs.uri w path)
      (FilterSpec.read p.specs.uri w' path)) :
    Alike (Request.Related S) (Request.read (p.requestWith w))
      (Request.read (p.requestWith w')) :=
  p.around.readRequest_alike hRefl (readSpecs_alike hRefl p.specs hSpec)

end SpecHole

/-- The requests are read alike if the specs of the place are. -/
theorem SpecPlace.readRequest_alike {p : SpecPlace} {w w' : Json}
    {S : FilterSpec → FilterSpec → Prop} (hRefl : ∀ spec, S spec spec)
    (hSpec : ∀ path, Alike S (FilterSpec.read p.specs.uri (p.specWith w) path)
      (FilterSpec.read p.specs.uri (p.specWith w') path)) :
    Alike (Request.Related S) (Request.read (p.requestWith w))
      (Request.read (p.requestWith w')) := p.hole.readRequest_alike hRefl hSpec

namespace ClausePlace

variable {p : ClausePlace} {v v' : Json}

-- ---------------------------------------------------------------------------
-- What is read at the place
-- ---------------------------------------------------------------------------

theorem toMembers_input (p : ClausePlace) (w : Json) :
    (orElseEmpty (Json.member "input" (p.clause.members (p.input.fill w))) (.obj [])).toMembers =
      .ok (p.input.members w) := by
  rw [Field.member_self, orElseEmpty, Field.isSet_fill]
  rfl

/-- The same clause is read, but for the value. -/
theorem readClause_eq (v v' : Json) (path : String) :
    Clause.read (p.clauseWith v') path =
      (Clause.read (p.clauseWith v) path).map fun c => { c with value := v' } := by
  -- the value is the one field in which the two clauses differ
  have hSelected := p.clause.member_other (p.input.fill v) (p.input.fill v')
    "selectedFilter" (by decide)
  have hOperator := p.clause.member_other (p.input.fill v) (p.input.fill v')
    "operator" (by decide)
  have hRadius := p.input.member_other v v' "radius" (by decide)
  have hPoints := p.input.member_other v v' "latLngs" (by decide)
  have hComparison := p.input.member_other v v' "expression" (by decide)
  have hCenter := p.input.member_other v v' "center" (by decide)
  change Clause.read (.obj (p.clause.members (p.input.fill v'))) path =
    (Clause.read (.obj (p.clause.members (p.input.fill v))) path).map _
  rw [Clause.read, Clause.read, toMembers_input, toMembers_input, hSelected, hOperator]
  cases Fault.raise ((orElseEmpty
      (Json.member "selectedFilter" (p.clause.members (p.input.fill v))) (.obj [])).get "text") with
  | error f => rfl
  | ok name =>
    simp only [Fault.raise, Except.mapError, bind, Except.bind, hRadius, hPoints, hComparison,
      hCenter, Field.member_self]
    split
    · rfl
    · split <;> rfl

/-- A clause that was read has the value and the name that stand at the place. -/
theorem readClause_eq_ok {path : String} {c : Clause}
    (h : Clause.read (p.clauseWith v) path = .ok c) :
    c.value = v ∧ c.name = (p.clauseWith v).atPath ["selectedFilter", "text"] := by
  change Clause.read (.obj (p.clause.members (p.input.fill v))) path = _ at h
  simp only [Clause.read, toMembers_input, bind_eq_ok_iff, raise_eq_ok_iff] at h
  obtain ⟨name, hName, input, hInput, radius, -, points, -, h⟩ := h
  cases hInput
  cases h
  obtain ⟨members, hMembers, rfl⟩ := map_eq_ok_iff.mp hName
  exact ⟨Field.member_self .., (atPath_of_orElseEmpty hMembers "text").symm⟩

/-- The clauses of the place are read alike: both are rejected, or they differ in the value. -/
theorem readClause_alike (path : String) :
    Alike (fun c c' => c' = { c with value := v' }) (Clause.read (p.clauseWith v) path)
      (Clause.read (p.clauseWith v') path) := by
  rw [readClause_eq v v']
  cases Clause.read (p.clauseWith v) path with
  | error f => exact .failed f f
  | ok c => exact .ok rfl

/-- The clauses of a spec are those around the place and the one at it. -/
theorem exists_clauseItems_fill (f : Frame) : ∃ before after, before.length = f.index ∧
    ∀ w, clauseItems (f.fill w) = .ok (before ++ w :: after) := by
  cases f with
  | item before after =>
    refine ⟨before, after, rfl, fun w => ?_⟩
    rw [clauseItems, orElseEmpty, Frame.isSet_fill]
    rfl
  | member before name after =>
    refine ⟨before.map (·.2), after.map (·.2), List.length_map _, fun w => ?_⟩
    rw [clauseItems, orElseEmpty, Frame.isSet_fill]
    simp [Frame.fill]

/-- The specs of the place are read alike if its clauses are. -/
theorem readSpec_alike {S : Clause → Clause → Prop} (hRefl : ∀ c, S c c)
    (hClause : ∀ path, Alike S (Clause.read (p.clauseWith v) path)
      (Clause.read (p.clauseWith v') path)) (uri : Json) (path : String) :
    Alike (fun spec spec' => spec' = { spec with clauses := spec'.clauses } ∧
        List.Forall₂ S spec.clauses spec'.clauses)
      (FilterSpec.read uri (p.specWith v) path) (FilterSpec.read uri (p.specWith v') path) := by
  obtain ⟨before, after, -, hItems⟩ := exists_clauseItems_fill p.clauses
  refine (readSpec_clauses (S := List.Forall₂ S)
    (p.spec.member_other (p.clauses.fill (p.clauseWith v)) (p.clauses.fill (p.clauseWith v')))
    (by rw [Field.member_self, hItems]) (by rw [Field.member_self, hItems])
    (readItems_alike (forall₂_hole (fun clause path => .refl hRefl _) hClause)) uri path).mono ?_
  exact fun spec spec' hBoth => ⟨hBoth.2.2, hBoth.1⟩

/-- A spec that was read has the variable that stands at the place. -/
theorem readSpec_var {uri : Json} {path : String} {spec : FilterSpec}
    (h : FilterSpec.read uri (p.specWith v) path = .ok spec) :
    spec.var = ifSet ((p.specWith v).atPath ["predicateName"]) := by
  change FilterSpec.read uri (.obj (p.spec.members (p.clauses.fill (p.clauseWith v)))) path = _ at h
  rw [FilterSpec.read] at h
  dsimp only at h
  split at h
  · cases h
  · simp only [bind_eq_ok_iff] at h
    obtain ⟨items, -, clauses, -, h⟩ := h
    cases h
    rfl

/-- The place of the clauses around the place. -/
def around (p : ClausePlace) : SpecPlace := ⟨p.request, p.key, p.entries, p.specs, p.spec⟩

/-- The requests are read alike if the specs of the place are. -/
theorem readRequest_alike {S : FilterSpec → FilterSpec → Prop} (hRefl : ∀ spec, S spec spec)
    (hSpec : ∀ uri path, Alike S (FilterSpec.read uri (p.specWith v) path)
      (FilterSpec.read uri (p.specWith v') path)) :
    Alike (Request.Related S) (Request.read (p.requestWith v)) (Request.read (p.requestWith v')) :=
  p.around.readRequest_alike hRefl fun path => hSpec _ path

end ClausePlace

end SparqlSelect
