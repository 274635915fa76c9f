import Mathlib.Logic.Relation
import SparqlSelect.Compile.Query
import SparqlSelect.Proofs.Request.Reordered

/-!
# Other forms of a request

A request may say the same in several forms. The specs of a key stand in an object, under their
IRIs, or in a list, each with its IRI; the clauses of a spec stand in an object, under any names, or
in a list; a datatype is held by an object, or stands by itself.

A payload is rewritten at one place at a time: around the place everything is read as before, and at
the place the same is read from either form. So however many places of a payload are rewritten, and
in whatever order, the same request is read.

* `TakesName`, `Listed` — a spec of an object, and the spec of a list that it becomes.
* `Rewrites` — payloads that differ in the form of what stands at one place.
* `readSpecs_listed`, `readSpec_items`, `readSpec_bare` — what is read at the place.
* `Rewrites.read_alike`, `Request.read_rewritten` — the requests after one step and after many.
* `Settings.compile_rewritten` — the queries.
-/

namespace SparqlSelect

open Json Relation

-- ---------------------------------------------------------------------------
-- Specs of an object and of a list
-- ---------------------------------------------------------------------------

/-- Members of a spec that are the same, but for the IRI: if the spec has none of its own, it takes
the name of its entry. -/
structure TakesName (name : String) (members members' : List (String × Json)) : Prop where
  uri : member "uri" members' = orElseEmpty (member "uri" members) (.str name)
  other : ∀ other, other ≠ "uri" → member other members' = member other members

/-- An entry of an object of specs, and the same spec in a list. -/
inductive Listed : String × Json → Json → Prop
  | intro {name : String} {members members' : List (String × Json)}
      (h : TakesName name members members') : Listed (name, .obj members) (.obj members')

/-- Clauses are read by themselves, wherever they stand. -/
theorem readClauses_path (items : List Json) (path path' : String) :
    Alike Eq (readItems Clause.read path items) (readItems Clause.read path' items) :=
  readClauses_alike Iff.rfl rfl

/-- The same spec is read from an object of specs and from a list. -/
theorem readSpec_takesName {name : String} {members members' : List (String × Json)}
    (h : TakesName name members members') (path path' : String) :
    Alike Eq (FilterSpec.read (.str name) (.obj members) path)
      (FilterSpec.read .null (.obj members') path') := by
  rw [FilterSpec.read, FilterSpec.read]
  simp only [h.uri, h.other "filters" (by decide), h.other "predicateName" (by decide),
    h.other "isOptional" (by decide), h.other "isSelectable" (by decide),
    h.other "datatype" (by decide)]
  generalize orElseEmpty (member "uri" members) (.str name) = uri
  by_cases hSet : uri.isSet = true
  · have hKept : orElseEmpty uri .null = uri := if_pos hSet
    rw [hKept, hSet]
    refine Alike.same _ fun items _ => (readClauses_path items _ _).bind ?_
    rintro clauses _ rfl
    exact .ok rfl
  · -- a name that is empty is no IRI in either form
    have hNone : orElseEmpty uri .null = .null := if_neg hSet
    rw [hNone, eq_false_of_ne_true hSet]
    exact .failed _ _

/-- The same specs are read from an object and from a list. -/
theorem readSpecs_listed {named : List (String × Json)} {listed : List Json}
    (h : List.Forall₂ Listed named listed) (path : String) :
    Alike (List.Forall₂ Eq) (readSpecs (.obj named) path) (readSpecs (.arr listed) path) := by
  -- an item is read at its index, whatever it is, so the indices may start anywhere
  have hIndexed (n : Nat) :
      List.Forall₂ (fun entry item => Listed entry item.1) named (listed.zipIdx n) := by
    induction h generalizing n with
    | nil => exact .nil
    | cons hSpec _ ih => exact .cons hSpec (ih (n + 1))
  have hSet : (Json.arr listed).isSet = (Json.obj named).isSet := by
    cases h with
    | nil => rfl
    | cons => rfl
  unfold readSpecs
  rw [hSet]
  split
  · exact .ok .nil
  · refine Alike.mapM (hIndexed 0) ?_
    rintro _ ⟨_, i⟩ ⟨hSpec⟩
    exact readSpec_takesName hSpec _ _

-- ---------------------------------------------------------------------------
-- Clauses and datatypes
-- ---------------------------------------------------------------------------

/-- Clauses in an object are those of its members, in their order. -/
theorem clauseItems_obj (members : List (String × Json)) :
    clauseItems (.obj members) = .ok (members.map (·.2)) := by
  cases members with
  | nil => rfl
  | cons => rfl

theorem clauseItems_arr (items : List Json) : clauseItems (.arr items) = .ok items := by
  cases items with
  | nil => rfl
  | cons => rfl

/-- The same spec is read whether its clauses stand in an object or in a list. -/
theorem readSpec_items (f : Field "filters") (clauses : List (String × Json)) (uri : Json)
    (path : String) :
    Alike Eq (FilterSpec.read uri (f.fill (.obj clauses)) path)
      (FilterSpec.read uri (f.fill (.arr (clauses.map (·.2)))) path) := by
  have hItems : clauseItems (member "filters" (f.members (.obj clauses))) =
      .ok (clauses.map (·.2)) := by rw [Field.member_self, clauseItems_obj]
  have hItems' : clauseItems (member "filters" (f.members (.arr (clauses.map (·.2))))) =
      .ok (clauses.map (·.2)) := by rw [Field.member_self, clauseItems_arr]
  refine (readSpec_clauses (f.member_other _ _) hItems hItems'
    (fun path => readClauses_path _ path path) uri path).mono ?_
  rintro spec spec' ⟨hClauses, -, hSame⟩
  rw [hSame, ← hClauses]

/-- A datatype is taken out of an object only. -/
theorem bareDatatype_of_ne_obj {value : Json} (h : ∀ members, value ≠ .obj members) :
    bareDatatype value = value := by
  cases value with
  | obj members => exact absurd rfl (h members)
  | _ => rfl

/-- The same spec is read whether its datatype is held by an object or stands by itself. -/
theorem readSpec_bare (f : Field "datatype") {members : List (String × Json)}
    (hBare : ∀ own, member "value" members ≠ .obj own) (uri : Json) (path : String) :
    FilterSpec.read uri (f.fill (member "value" members)) path =
      FilterSpec.read uri (f.fill (.obj members)) path := by
  have hOther := f.member_other (.obj members) (member "value" members)
  change FilterSpec.read uri (.obj (f.members (member "value" members))) path =
    FilterSpec.read uri (.obj (f.members (.obj members))) path
  rw [FilterSpec.read, FilterSpec.read]
  simp only [hOther "uri" (by decide), hOther "predicateName" (by decide),
    hOther "isOptional" (by decide), hOther "isSelectable" (by decide),
    hOther "filters" (by decide), Field.member_self, bareDatatype_of_ne_obj hBare]
  rfl

-- ---------------------------------------------------------------------------
-- Payloads
-- ---------------------------------------------------------------------------

/-- A payload in which one of the forms gives way to the other at one place. -/
inductive Rewrites : Json → Json → Prop
  /-- The specs of a key move from an object into a list. -/
  | specs (p : EntryPlace) {named : List (String × Json)} {listed : List Json}
      (h : List.Forall₂ Listed named listed) :
      Rewrites (p.requestWith (.obj named)) (p.requestWith (.arr listed))
  /-- The clauses of a spec move from an object into a list, in their order. -/
  | clauses (p : SpecPlace) (named : List (String × Json)) :
      Rewrites (p.requestWith (.obj named)) (p.requestWith (.arr (named.map (·.2))))
  /-- The datatype of a spec is taken out of the object that holds it as its value. -/
  | datatype (p : SpecHole) (f : Field "datatype") {members : List (String × Json)}
      (hBare : ∀ own, member "value" members ≠ .obj own) :
      Rewrites (p.requestWith (f.fill (.obj members)))
        (p.requestWith (f.fill (member "value" members)))

/-- Requests whose specs are equal one by one are equal. -/
theorem Request.Related.eq {r r' : Request} (h : r.Related Eq r') : r = r' := by
  have hFilters : r.filters = r'.filters := by
    refine List.forall₂_eq_eq_eq ▸ h.filters.imp ?_
    rintro ⟨key, specs⟩ ⟨key', specs'⟩ ⟨hKey, hSpecs⟩
    rw [List.forall₂_eq_eq_eq] at hSpecs
    exact Prod.ext hKey hSpecs
  rw [h.same, ← hFilters]

/-- One step leaves the request as it is. -/
theorem Rewrites.read_alike {payload payload' : Json} (h : Rewrites payload payload') :
    Alike Eq (Request.read payload) (Request.read payload') := by
  refine Alike.mono (fun _ _ => Request.Related.eq) ?_
  have hRefl (spec : FilterSpec) : spec = spec := rfl
  cases h with
  | specs p h => exact p.readRequest_alike hRefl (readSpecs_listed h)
  | clauses p named =>
    exact p.readRequest_alike hRefl fun path => readSpec_items p.spec named _ path
  | datatype p f hBare =>
    refine p.readRequest_alike hRefl fun path => ?_
    rw [readSpec_bare f hBare]
    exact .refl hRefl _

/-- Any number of steps leaves the request as it is: it is read from both payloads or from
neither. -/
theorem Request.read_rewritten {payload payload' : Json}
    (h : ReflTransGen Rewrites payload payload') (r : Request) :
    Request.read payload = .ok r ↔ Request.read payload' = .ok r := by
  induction h with
  | refl => exact Iff.rfl
  | tail _ hStep ih => exact ih.trans (alike_eq_iff.mp hStep.read_alike r)

/-- **Other forms.** However many objects of specs, objects of clauses and objects that hold a
datatype are rewritten in a payload that is read, the same request is read, and the same query is
built from it, with the same notes and the same text. -/
theorem Settings.compile_rewritten {payload payload' : Json} {r : Request}
    (h : ReflTransGen Rewrites payload payload') (hRead : Request.read payload = .ok r) :
    Request.read payload' = .ok r ∧ ∀ s : Settings,
      s.build payload' = s.build payload ∧ s.compile payload' = s.compile payload := by
  have hRead' := (Request.read_rewritten h r).mp hRead
  refine ⟨hRead', fun s => ?_⟩
  have hBuild : s.build payload' = s.build payload := by
    rw [Settings.build, Settings.build, hRead, hRead']
  exact ⟨hBuild, by rw [Settings.compile, Settings.compile, hBuild]⟩

/-- A request with one observable, without the specs of its predicate. -/
def wellPlace : EntryPlace where
  request := ⟨[("observables", .arr [.obj [("subject", .str "?well"),
    ("predicate", .str "x:depth"), ("object", .str "?d")]])], [], by simp⟩
  key := "x:depth"
  entries := ⟨[], [], by simp⟩

/-- A spec without an IRI, with a datatype and clauses. -/
def depthSpec (datatype clauses : Json) : List (String × Json) :=
  [("predicateName", .str "?depth"), ("datatype", datatype), ("filters", clauses)]

/-- A spec with an IRI of its own. -/
def labelSpec : List (String × Json) := [("uri", .str "x:label"), ("predicateName", .str "?name")]

/-- A range with a lower bound. -/
def deepClause : Json :=
  .obj [("selectedFilter", .obj [("text", .str "range")]),
    ("input", .obj [("expression", .str ">"), ("value", .int 40)])]

/-- The specs in an object, with the clauses and the datatype of the first in objects. -/
def wellNamed : Json :=
  .obj [("x:metres", .obj (depthSpec (.obj [("value", .str "xsd:float")])
      (.obj [("lower", deepClause)]))),
    ("x:alias", .obj labelSpec)]

/-- The specs in a list, with the clauses in a list and the bare datatype. -/
def wellListed : Json :=
  .arr [.obj (("uri", .str "x:metres") :: depthSpec (.str "xsd:float") (.arr [deepClause])),
    .obj labelSpec]

/-- The request without its first spec. -/
def wellHole : SpecHole :=
  ⟨wellPlace.request, _, wellPlace.entries, .member [] "x:metres" [("x:alias", .obj labelSpec)]⟩

/-- The two forms of that request are some rewritings apart. -/
theorem wellNamed_listed :
    ReflTransGen Rewrites (wellPlace.requestWith wellNamed)
      (wellPlace.requestWith wellListed) := by
  -- the clauses are listed first, then the datatype is made plain, then the specs are listed
  have hClauses := Rewrites.clauses
    ⟨wellHole.request, _, wellHole.entries, wellHole.specs, ⟨[("predicateName", .str "?depth"),
      ("datatype", .obj [("value", .str "xsd:float")])], [], by simp⟩⟩ [("lower", deepClause)]
  have hBare (own : List (String × Json)) :
      member "value" [("value", Json.str "xsd:float")] ≠ .obj own := by simp [member]
  have hDatatype := Rewrites.datatype wellHole
    ⟨[("predicateName", .str "?depth")], [("filters", .arr [deepClause])], by simp⟩ hBare
  have hDepth : TakesName "x:metres" (depthSpec (.str "xsd:float") (.arr [deepClause]))
      (("uri", .str "x:metres") :: depthSpec (.str "xsd:float") (.arr [deepClause])) := by
    refine ⟨rfl, fun name hName => ?_⟩
    have hNot : (name == "uri") = false := beq_eq_false_iff_ne.mpr hName
    simp [member, List.lookup_cons, hNot]
  have hLabel : TakesName "x:alias" labelSpec labelSpec := ⟨rfl, fun _ _ => rfl⟩
  have hSpecs := Rewrites.specs wellPlace (.cons (.intro hDepth) (.cons (.intro hLabel) .nil))
  exact .head hClauses (.head hDatatype (.single hSpecs))

/-- The first spec takes the name of its entry, the second one keeps its IRI. -/
theorem Settings.compile_rewritten_well :
    ∃ r, Request.read (wellPlace.requestWith wellNamed) = .ok r ∧
      Request.read (wellPlace.requestWith wellListed) = .ok r ∧
      Settings.standard.compile (wellPlace.requestWith wellListed) =
        Settings.standard.compile (wellPlace.requestWith wellNamed) := by
  obtain ⟨r, hRead⟩ := exists_of_isOk
    (show (Request.read (wellPlace.requestWith wellNamed)).isOk = true by decide +kernel)
  obtain ⟨hListed, hSame⟩ := Settings.compile_rewritten wellNamed_listed hRead
  exact ⟨r, hRead, hListed, (hSame .standard).2⟩

end SparqlSelect
