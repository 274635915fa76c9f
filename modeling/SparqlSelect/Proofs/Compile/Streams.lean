import SparqlSelect.Proofs.Compile.Demands
import SparqlSelect.Proofs.Compile.Specs
import SparqlSelect.Proofs.Filter.Places
import SparqlSelect.Proofs.Filter.Sealed
import SparqlSelect.Proofs.Request.Reordered

/-!
# Streams of clauses

What the clauses of a spec give is kept apart: conditions are written one by one, lower and upper
bounds are paired, and functions are asked for by category. So a clause that was chosen belongs to
one of five streams, or to none if it gives nothing that can be written. Clauses in another order
give the same as long as each stream of them keeps its order.

* `Settings.stream?` — the stream of a clause on an IRI that is no geospatial function.
* `stream?_of_condition`, `stream?_of_bound`, `stream?_of_call` — where each comes from.
* `conditions_eq_of_reordered`, `mergedExpression_eq_of_reordered`, `callsOf_eq_of_reordered` — what
  the clauses give.
-/

namespace SparqlSelect

/-- Clauses whose order among themselves counts. -/
inductive ClauseStream where
  /-- Ranges with a comparison that asks for more. -/
  | lower
  /-- Ranges with a comparison that asks only for less. -/
  | upper
  /-- Clauses that give a condition of their own. -/
  | condition
  /-- Clauses that ask for a function of a category. -/
  | function (category : FunctionCategory)
deriving DecidableEq, Repr

/-- The stream of a bound; one that is on neither side is dropped. -/
def Bound.stream? (b : Bound) : Option ClauseStream :=
  if b.isLower then some .lower else if b.isUpper then some .upper else none

/-- The stream of a clause of a kind. A circle or a polygon is no condition, so it is in none. But a
circle could be one if its unit had a quote in it, which no IRI has. -/
def Settings.streamOf (s : Settings) (c : Clause) : FilterKind → Option ClauseStream
  | .contain | .startMatch | .regexMatch | .bound => some .condition
  | .range => Bound.stream? ⟨c.value, comparisonSymbol c.comparison, ""⟩
  | .aggregateFunction => some (.function .aggregate)
  | .temporalFunction => some (.function .temporal)
  | .nearby => if s.distanceUnit.display.toList.any isQuote then some .condition else none
  | .within | .unsupported => none

/-- The stream of a clause, if it was chosen and is in one. -/
def Settings.stream? (s : Settings) (c : Clause) : Option ClauseStream :=
  if c.isSelected then (FilterKind.of c.name).toOption.bind (s.streamOf c) else none

-- ---------------------------------------------------------------------------
-- What the members of a stream give
-- ---------------------------------------------------------------------------

section

variable {s : Settings} {spec : FilterSpec} {c : Clause}

theorem stream?_of_kind {kind : FilterKind} (hSelected : c.isSelected = true)
    (hKind : FilterKind.of c.name = .ok kind) : s.stream? c = s.streamOf c kind := by
  simp [Settings.stream?, hSelected, hKind, Except.toOption]

/-- A condition that can stand in a `FILTER` comes from the stream of conditions. -/
theorem stream?_of_condition {e : String} (h : s.condition? spec c = some e)
    (hFits : Kind.acceptsAny Kind.forFilter e = true) : s.stream? c = some .condition := by
  have hFragment := Settings.condition?_eq_some h
  obtain ⟨hSelected, hFound⟩ := Settings.fragment?_eq_some_iff.mp hFragment
  obtain ⟨kind, hKind, hSource⟩ := translate_eq_some hFound
  rw [stream?_of_kind hSelected hKind]
  -- a circle or a polygon is no condition the grammar accepts, so the fragment is an expression
  obtain ⟨rfl, hCircle⟩ | ⟨rfl, hPolygon⟩ | ⟨x, -, hExpression⟩ := hSource
  · cases hUnit : s.distanceUnit.display.toList.any isQuote with
    | true => simp [Settings.streamOf, hUnit]
    | false =>
      rw [not_condition_circleOf hUnit hCircle] at hFits
      cases hFits
  · rw [not_condition_polygonOf hPolygon] at hFits
    cases hFits
  · cases kind with
    | contain | startMatch | regexMatch | bound => rfl
    | range =>
      have hNone : s.condition? spec c = none := if_pos (by rw [hKind]; rfl)
      rw [hNone] at h
      cases h
    | nearby | within | aggregateFunction | temporalFunction | unsupported => cases hExpression

/-- A bound comes from the stream of its side. -/
theorem stream?_of_bound {b : Bound} (h : s.bound? spec c = some b) :
    s.stream? c = b.stream? := by
  obtain ⟨hName, hFragment⟩ := Settings.bound?_eq_some h
  obtain ⟨hSelected, -⟩ := Settings.fragment?_eq_some_iff.mp hFragment
  rw [stream?_of_kind hSelected (toOption_eq_some_iff.mp hName)]
  rw [Settings.bound?, if_pos hName, hFragment] at h
  -- the side of a bound does not depend on its expression
  rw [← Option.some.inj h]
  rfl

/-- A call comes from the stream of its category. -/
theorem stream?_of_call {o : Observable} {key : String} {call : FunctionCall}
    (h : s.call? o key spec c = some call) : s.stream? c = some (.function call.category) := by
  unfold Settings.call? at h
  split at h
  · cases h
  obtain ⟨var, -, h⟩ := Option.bind_eq_some_iff.mp h
  obtain ⟨category, hCategory, rfl⟩ := Option.map_eq_some_iff.mp h
  obtain ⟨hSelected, ⟨kind, hKind, hCategory⟩, -⟩ := Clause.category?_eq_some_iff.mp hCategory
  rw [stream?_of_kind hSelected hKind]
  cases kind <;> cases hCategory <;> rfl

-- ---------------------------------------------------------------------------
-- Clauses in another order
-- ---------------------------------------------------------------------------

variable {clauses : List Clause}

/-- The conditions are the same. -/
theorem conditions_eq_of_reordered (h : Reordered s.stream? spec.clauses clauses)
    (hAdmits : ∀ c ∈ spec.clauses, s.Admits spec c) :
    s.conditions { spec with clauses } = s.conditions spec := by
  refine (h.filterMap_eq .condition fun c hc e he => ?_).symm
  have hSelected := (Settings.fragment?_eq_some_iff.mp (Settings.condition?_eq_some he)).1
  exact stream?_of_condition he (Kind.acceptsAny_of_within ((hAdmits c hc hSelected).2 e he))

/-- The bounds are merged to the same expression. -/
theorem mergedExpression_eq_of_reordered (h : Reordered s.stream? spec.clauses clauses) :
    mergedExpression (s.bounds { spec with clauses }) = mergedExpression (s.bounds spec) := by
  -- each side of the bounds is one stream, in which the order is kept
  have hSide (side : Bound → Bool) (stream : ClauseStream)
      (hStream : ∀ b : Bound, side b = true → b.stream? = some stream) :
      (s.bounds { spec with clauses }).filter side = (s.bounds spec).filter side := by
    rw [Settings.bounds, Settings.bounds, List.filter_filterMap, List.filter_filterMap]
    refine (h.filterMap_eq stream fun c _ b hb => ?_).symm
    obtain ⟨hBound, hb⟩ := Option.filter_eq_some_iff.mp hb
    rw [stream?_of_bound hBound, hStream b hb]
  have hLower := hSide (·.isLower) .lower fun b hb => by rw [Bound.stream?, if_pos hb]
  have hUpper := hSide (fun b => !b.isLower && b.isUpper) .upper fun b hb => by
    obtain ⟨hNot, hb⟩ := Bool.and_eq_true_iff.mp hb
    rw [Bound.stream?, if_neg (by simpa using hNot), if_pos hb]
  rw [mergedExpression, mergedExpression, hLower, hUpper]

/-- The functions of a category are asked for in the same order. -/
theorem callsOf_eq_of_reordered (h : Reordered s.stream? spec.clauses clauses) (o : Observable)
    (key : String) (category : FunctionCategory) :
    (s.callsOf o key { spec with clauses }).filter (·.category = category) =
      (s.callsOf o key spec).filter (·.category = category) := by
  rw [Settings.callsOf, Settings.callsOf, List.filter_filterMap, List.filter_filterMap]
  refine (h.filterMap_eq (.function category) fun c _ call hCall => ?_).symm
  obtain ⟨hCall, hCategory⟩ := Option.filter_eq_some_iff.mp hCall
  rw [stream?_of_call hCall, of_decide_eq_true hCategory]

end

end SparqlSelect
