import SparqlSelect.Proofs.Compile.Equivalent
import SparqlSelect.Proofs.Compile.Specs
import SparqlSelect.Proofs.Filter.Conditions
import SparqlSelect.Proofs.Request.Reordered

/-!
# Clauses without effect

Some clauses are passed over without an error: those that were never chosen, those of a kind that is
not supported, and those that lack the value they would compare with. Such a clause changes nothing
at any position: it writes nothing, keeps no bound and asks for no function, whether its spec
belongs to an observable or to a search by place, on the IRI of a geospatial function or not. All
that it may leave is a message.

* `Clause.IsIgnored` — the clauses this is about.
* `Clause.IsIgnored.givesNothing`, `call?_ignored` — such a clause gives no fragment and no call.
* `FilterSpec.agrees_insert` — a spec with one more of them.
* `compile_ignores` — the text of a payload with one more of them.
-/

namespace SparqlSelect

open Json

/-- A clause that is passed over. -/
inductive Clause.IsIgnored (c : Clause) : Prop
  | unselected : c.isSelected = false → IsIgnored c
  | unsupported : FilterKind.of c.name = .ok .unsupported → IsIgnored c
  /-- A range by date or time, as they were called once. -/
  | formerRange {name : String} : c.name = .str name →
    FilterKind.plainName name ∈ Settings.formerRanges → IsIgnored c
  | missing {kind : FilterKind} : FilterKind.of c.name = .ok kind → kind.needsValue = true →
    c.value.isMissing = true → IsIgnored c

-- ---------------------------------------------------------------------------
-- One clause
-- ---------------------------------------------------------------------------

section

variable {s : Settings} {spec : FilterSpec} {o : Observable} {key : String} {c : Clause}

/-- The former names of ranges stand for no kind that is supported. -/
theorem unsupported_of_formerRange {name : String}
    (h : FilterKind.plainName name ∈ Settings.formerRanges) :
    FilterKind.of (.str name) = .ok .unsupported := by
  have hAll : ∀ former ∈ Settings.formerRanges,
      FilterKind.ofPlainName former = .unsupported := by decide
  exact congrArg Except.ok (hAll _ h)

/-- A clause that was chosen and is passed over has a kind, which asks for no function: it is not
supported, or it compares with a value that is not there. -/
theorem Clause.IsIgnored.kind (h : c.IsIgnored) (hSelected : c.isSelected = true) :
    ∃ kind, FilterKind.of c.name = .ok kind ∧
      (kind = .unsupported ∨ kind.needsValue = true ∧ c.value.isMissing = true) := by
  cases h with
  | unselected hNot =>
    rw [hSelected] at hNot
    cases hNot
  | unsupported hKind => exact ⟨_, hKind, .inl rfl⟩
  | formerRange hName hFormer =>
    rw [hName]
    exact ⟨_, unsupported_of_formerRange hFormer, .inl rfl⟩
  | missing hKind hNeeds hMissing => exact ⟨_, hKind, .inr ⟨hNeeds, hMissing⟩⟩

theorem FilterKind.onVariables_of_needsValue {kind : FilterKind} (h : kind.needsValue = true) :
    kind ∈ onVariables := by
  cases kind with
  | contain | startMatch | regexMatch | range => decide
  | _ => cases h

theorem FilterKind.category?_of_onVariables {kind : FilterKind} (h : kind ∈ onVariables) :
    kind.category? = none := by
  have hAll : ∀ kind ∈ onVariables, kind.category? = none := by decide
  exact hAll kind h

theorem Clause.IsIgnored.category (h : c.IsIgnored) (hSelected : c.isSelected = true) :
    ∃ kind, FilterKind.of c.name = .ok kind ∧ kind.category? = none := by
  obtain ⟨kind, hKind, rfl | ⟨hNeeds, -⟩⟩ := h.kind hSelected
  · exact ⟨_, hKind, rfl⟩
  · have hOn := FilterKind.onVariables_of_needsValue hNeeds
    exact ⟨kind, hKind, FilterKind.category?_of_onVariables hOn⟩

/-- A kind that is not supported gives no fragment. -/
theorem translate_unsupported (hKind : FilterKind.of c.name = .ok .unsupported)
    (var datatype : Option Json) : (s.translate c var datatype).outcome = .ok none := by
  obtain ⟨name, hName, hUnsupported⟩ := map_eq_ok_iff.mp hKind
  rw [Settings.translate, Traced.liftM_raise_eq_pure hName, pure_bind]
  dsimp only
  rw [hUnsupported]
  rfl

/-- A clause that is passed over gives no fragment. -/
theorem Clause.IsIgnored.givesNothing (h : c.IsIgnored) : c.GivesNothing s := by
  intro hSelected var datatype
  obtain ⟨kind, hKind, rfl | ⟨hNeeds, hMissing⟩⟩ := h.kind hSelected
  · exact translate_unsupported hKind var datatype
  · rw [translate_onVariable hKind (FilterKind.onVariables_of_needsValue hNeeds)]
    cases var with
    | none => rfl
    | some var =>
      dsimp only
      rw [hNeeds, hMissing]
      rfl

/-- It asks for no function. -/
theorem call?_ignored (h : c.IsIgnored) : s.call? o key spec c = none := by
  have hNone : c.category? = none := by
    -- a clause that is ignored has a kind that asks for nothing
    rw [Option.eq_none_iff_forall_ne_some]
    intro category hCategory
    obtain ⟨hSelected, ⟨kind, hKind, hAsks⟩, -⟩ := Clause.category?_eq_some_iff.mp hCategory
    obtain ⟨kind', hKind', hNot⟩ := h.category hSelected
    rw [hKind] at hKind'
    obtain rfl := Except.ok.inj hKind'
    rw [hNot] at hAsks
    cases hAsks
  rw [Settings.call?, hNone]
  split
  · rfl
  · simp

-- ---------------------------------------------------------------------------
-- One spec
-- ---------------------------------------------------------------------------

variable {before after : List Clause}

/-- With a clause more that is passed over, a spec agrees with what it was. -/
theorem FilterSpec.agrees_insert (h : c.IsIgnored) (hClauses : spec.clauses = before ++ after) :
    spec.Agrees s { spec with clauses := before ++ c :: after } where
  written := FilterSpec.writesAlike_insert h.givesNothing hClauses
  selected := rfl
  called o key category := by
    have hCall : s.call? o key { spec with clauses := before ++ c :: after } = s.call? o key spec :=
      rfl
    simp only [Settings.callsOf, hCall, hClauses]
    rw [List.filterMap_append, List.filterMap_append, List.filterMap_cons, call?_ignored h]

end

-- ---------------------------------------------------------------------------
-- Payloads
-- ---------------------------------------------------------------------------

section

variable {s : Settings} {hole : SpecHole} {members members' : List (String × Json)}
  {before after : List Json} {item : Json} {c : Clause}

/-- An object with a clause more is read to a spec with a clause more. -/
theorem readSpec_insert
    (hOther : ∀ name, name ≠ "filters" → member name members' = member name members)
    (hItems : clauseItems (member "filters" members) = .ok (before ++ after))
    (hItems' : clauseItems (member "filters" members') = .ok (before ++ item :: after))
    (hItem : Clause.read? item = some c) (uri : Json) (path : String) :
    Alike (fun spec spec' => ∃ first rest, spec.clauses = first ++ rest ∧
        spec' = { spec with clauses := first ++ c :: rest })
      (FilterSpec.read uri (.obj members) path) (FilterSpec.read uri (.obj members') path) := by
  refine (readSpec_clauses hOther hItems hItems' (fun _ => readClauses_insert hItem) uri
    path).mono ?_
  rintro spec spec' ⟨⟨first, rest, hClauses, hMore⟩, -, hSame⟩
  exact ⟨first, rest, hClauses, hMore ▸ hSame⟩

/-- **Clauses without effect.** Take any spec of any payload and insert among its clauses, at any
position, a clause that can be read and is passed over: it was not chosen, its kind is not
supported, or it lacks the value that its kind needs. Then the new payload has a query exactly if
the old one has, and the text is the same. The clauses may stand in a list or in an object, and the
spec need not have had any. -/
theorem compile_ignores
    (hOther : ∀ name, name ≠ "filters" → member name members' = member name members)
    (hItems : clauseItems (member "filters" members) = .ok (before ++ after))
    (hItems' : clauseItems (member "filters" members') = .ok (before ++ item :: after))
    (hItem : Clause.read? item = some c) (hIgnored : c.IsIgnored) (text : String) :
    s.compile (hole.requestWith (.obj members)) = .ok text ↔
      s.compile (hole.requestWith (.obj members')) = .ok text := by
  -- at each address, and for each path, the two specs agree in the build and in a search
  have hSpecs (path : String) :
      Alike (fun spec spec' => spec.Agrees s spec' ∧ spec.AgreesInSearch s spec')
        (FilterSpec.read hole.specs.uri (.obj members) path)
        (FilterSpec.read hole.specs.uri (.obj members') path) := by
    refine (readSpec_insert hOther hItems hItems' hItem hole.specs.uri path).mono ?_
    rintro spec _ ⟨first, rest, hClauses, rfl⟩
    exact ⟨FilterSpec.agrees_insert hIgnored hClauses,
      FilterSpec.agreesInSearch_insert hIgnored.givesNothing hClauses⟩
  have hRequests := hole.readRequest_alike (fun spec => ⟨.refl s spec, .refl s spec⟩) hSpecs
  refine compile_congr hRequests (fun r r' hRelated => ?_) text
  exact buildRequest_congr (hRelated.mono fun _ _ hSpec => hSpec.1)
    (.inr (hRelated.mono fun _ _ hSpec => hSpec.2))

/-- A request with one observable, without the spec of its predicate. -/
def headingHole : SpecHole where
  request := ⟨[("observables", .arr [.obj [("subject", .str "?ship"),
    ("predicate", .str "x:course"), ("object", .str "?c")]])], [], by simp⟩
  key := "x:course"
  entries := ⟨[], [], by simp⟩
  specs := .item [] []

/-- The members of a spec with some clauses. -/
def headingSpec (clauses : List Json) : List (String × Json) :=
  [("uri", .str "x:heading"), ("predicateName", .str "?h"), ("filters", .arr clauses)]

/-- The bounds of a range that wraps around. -/
def lowerItem : Json := clauseOf "range" [("expression", .str ">"), ("value", .int 315)]

def upperItem : Json := clauseOf "range" [("expression", .str "<"), ("value", .int 45)]

/-- A range by its former name, with a value. -/
def formerRangeItem : Json := clauseOf "dateTimeRange" [("expression", .str ">"),
  ("value", .str "2020-01-01")]

/-- Between the bounds of a range that wraps around, a range by its former name changes nothing. -/
theorem compile_ignores_former_range :
    ∃ text,
      Settings.standard.compile (headingHole.requestWith
        (.obj (headingSpec [lowerItem, upperItem]))) = .ok text ∧
      Settings.standard.compile (headingHole.requestWith
        (.obj (headingSpec [lowerItem, formerRangeItem, upperItem]))) = .ok text := by
  obtain ⟨text, hText⟩ := exists_of_isOk
    (show (Settings.standard.compile (headingHole.requestWith
      (.obj (headingSpec [lowerItem, upperItem])))).isOk = true by decide +kernel)
  have hOther (clauses clauses' : List Json) (name : String) (hName : name ≠ "filters") :
      member name (headingSpec clauses') = member name (headingSpec clauses) := by
    have hNot : (name == "filters") = false := beq_eq_false_iff_ne.mpr hName
    simp [headingSpec, member, List.lookup_cons, hNot]
  obtain ⟨c, hItem, hName⟩ : ∃ c, Clause.read? formerRangeItem = some c ∧
      c.name = .str "dateTimeRange" := ⟨_, rfl, rfl⟩
  -- the former name is no kind of clause, whatever else stands in the item
  have hIgnored : c.IsIgnored := .formerRange hName (by decide +kernel)
  have hOld : clauseItems (member "filters" (headingSpec [lowerItem, upperItem])) =
      .ok ([lowerItem] ++ [upperItem]) := rfl
  have hNew : clauseItems (member "filters" (headingSpec [lowerItem, formerRangeItem, upperItem])) =
      .ok ([lowerItem] ++ formerRangeItem :: [upperItem]) := rfl
  exact ⟨text, hText,
    (compile_ignores (hOther _ _) hOld hNew hItem hIgnored text).mp hText⟩

end

end SparqlSelect
