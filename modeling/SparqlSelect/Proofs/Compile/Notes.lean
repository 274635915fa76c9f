import SparqlSelect.Compile.Query
import SparqlSelect.Proofs.Traced.Notes

/-!
# What the notes ask for

While the pattern of an observable is built, variables to select and functions to compute are noted.
A variable that is noted is a term of the observable, or the variable of one of its specs. A
function that is noted was asked for by a clause, and carries the terms and the key of the
observable.

* `Note.IsOf` — the notes that an observable may leave.
* `subgraph_leaves` — it leaves no others.
* `exists_of_selectedVar`, `exists_of_call` — what is selected and computed, traced back.
-/

namespace SparqlSelect

/-- The call that a clause of a spec asks for. -/
def Observable.call (o : Observable) (key : String) (category : FunctionCategory)
    (spec : FilterSpec) (var : Json) (c : Clause) : FunctionCall where
  category
  function := c.functionName
  var := var.display
  uri := spec.uri.display
  subject := o.subject
  predicate := o.predicate
  object := o.object
  key

/-- A clause asks for a function of a category, which it names. -/
structure Clause.AsksFor (c : Clause) (category : FunctionCategory) : Prop where
  selected : c.isSelected = true
  kind : ∃ kind, FilterKind.of c.name = .ok kind ∧ kind.category? = some category
  named : c.functionName ≠ ""

/-- The notes that an observable may leave, besides messages. -/
inductive Note.IsOf (specs : List FilterSpec) (o : Observable) (key : String) : Note → Prop
  | message (level : Level) (message : String) : IsOf specs o key (.log level message)
  | term {v : String} : v ∈ o.terms → isVariableTerm v = true → IsOf specs o key (.selected v)
  | boundVar {spec : FilterSpec} {var : Json} : spec ∈ specs → spec.var = some var →
    IsOf specs o key (.selected var.display)
  | function {spec : FilterSpec} {var : Json} {c : Clause} {category : FunctionCategory} :
    spec ∈ specs → spec.var = some var → c ∈ spec.clauses → c.AsksFor category →
    IsOf specs o key (.requested (o.call key category spec var c))

/-- A note that is a message. -/
def Note.IsMessage : Note → Prop
  | .log _ _ => True
  | .selected _ | .requested _ => False

/-- A message may be left by any observable. -/
theorem Note.IsMessage.isOf {specs : List FilterSpec} {o : Observable} {key : String} (n : Note)
    (h : n.IsMessage) : n.IsOf specs o key := by
  cases n with
  | log level message => exact .message level message
  | selected _ | requested _ => exact False.elim h

open Traced

section

variable {s : Settings} {spec : FilterSpec} {o : Observable} {key : String} {c : Clause}

-- ---------------------------------------------------------------------------
-- Clauses
-- ---------------------------------------------------------------------------

/-- What is logged is a message. -/
theorem leaves_log (level : Level) (message : String) :
    (Traced.log level message).Leaves Note.IsMessage :=
  leaves_note trivial

/-- Passing over a clause leaves a message. -/
theorem passOver_leaves (before after : String) :
    (Settings.passOver c before after).Leaves Note.IsMessage :=
  (leaves_log _ _).bind fun _ _ => leaves_pure

/-- A fragment that is not there leaves a message. -/
theorem orMessage_leaves (fragment : Option String) (message : String) :
    (Settings.orMessage fragment message).Leaves Note.IsMessage := by
  unfold Settings.orMessage
  split
  · exact (leaves_log _ _).bind fun _ _ => leaves_pure
  · exact leaves_pure

/-- Translating a clause leaves nothing but messages. -/
theorem translate_leaves (var datatype : Option Json) :
    (s.translate c var datatype).Leaves Note.IsMessage := by
  unfold Settings.translate
  refine leaves_lift.bind fun name _ => ?_
  dsimp only
  generalize FilterKind.ofPlainName (FilterKind.plainName name) = kind
  -- a call may note that it passes over the clause, and nothing else
  cases kind with
  | aggregateFunction | temporalFunction => exact leaves_pure
  | unsupported => exact passOver_leaves _ _
  | nearby | within => exact leaves_lift.bind fun _ _ => orMessage_leaves _ _
  | contain | bound | startMatch | regexMatch | range =>
    cases var with
    | none => exact passOver_leaves _ _
    | some var =>
      dsimp only
      split
      · exact passOver_leaves _ _
      · exact leaves_lift

/-- A geospatial clause leaves messages only. -/
theorem placeClause_leaves (subject : String) (p : Progress) :
    (s.placeClause spec subject p c).Leaves Note.IsMessage := by
  refine (translate_leaves _ _).bind fun found _ => ?_
  cases found with
  | none => exact leaves_pure
  | some fragment => exact leaves_lift.bind fun _ _ => leaves_lift

/-- A constraint leaves messages only. -/
theorem constrain_leaves (kind : FilterKind) (p : SpecProgress) :
    (s.constrain spec kind p c).Leaves Note.IsMessage := by
  refine (translate_leaves _ _).bind fun found _ => ?_
  cases found with
  | none => exact leaves_pure
  | some fragment =>
    dsimp only
    split
    · exact leaves_pure
    · exact leaves_lift.bind fun _ _ => leaves_pure

/-- The request of a function leaves a message or the call that the clause asks for. -/
theorem requestFunction_leaves {specs : List FilterSpec} {category : FunctionCategory}
    (hSpec : spec ∈ specs) (hClause : c ∈ spec.clauses)
    (hAsks : c.functionName ≠ "" → c.AsksFor category) :
    (requestFunction category spec o key c).Leaves (Note.IsOf specs o key) := by
  unfold requestFunction
  have hIgnored : (requestFunction.ignored spec).Leaves (Note.IsOf specs o key) :=
    (leaves_log _ _).mono Note.IsMessage.isOf
  cases hVar : spec.var with
  | none => exact hIgnored
  | some var =>
    dsimp only
    split
    · exact hIgnored
    · rename_i hNamed
      exact leaves_note (.function hSpec hVar hClause (hAsks (by simpa using hNamed)))

/-- A clause of a spec leaves messages, or the call that it asks for. -/
theorem applyClause_leaves {specs : List FilterSpec} (hSpec : spec ∈ specs)
    (hClause : c ∈ spec.clauses) (p : SpecProgress) :
    (s.applyClause spec o key p c).Leaves (Note.IsOf specs o key) := by
  unfold Settings.applyClause
  split
  · exact leaves_pure
  rename_i hSelected
  -- what is tried before the last two cases writes messages alone
  refine leaves_lift.bind fun isGeo _ => ?_
  split
  · exact ((placeClause_leaves _ _).bind fun _ _ => leaves_pure).mono Note.IsMessage.isOf
  refine leaves_lift.bind fun kind hKind => ?_
  split
  · rename_i category hCategory
    have hAsks (hNamed : c.functionName ≠ "") : c.AsksFor category :=
      ⟨by simpa using hSelected, ⟨kind, raise_eq_ok_iff.mp hKind, hCategory⟩, hNamed⟩
    exact (requestFunction_leaves hSpec hClause hAsks).bind fun _ _ => leaves_pure
  · exact (constrain_leaves _ _).mono Note.IsMessage.isOf

-- ---------------------------------------------------------------------------
-- Specs and observables
-- ---------------------------------------------------------------------------

/-- A spec notes its own variable. -/
theorem noteSelected_leaves {specs : List FilterSpec} (hSpec : spec ∈ specs) :
    spec.noteSelected.Leaves (Note.IsOf specs o key) := by
  unfold FilterSpec.noteSelected
  cases hVar : spec.var with
  | none => exact leaves_pure
  | some var =>
    dsimp only
    split
    · exact leaves_note (.boundVar hSpec hVar)
    · exact leaves_pure

/-- Merging bounds leaves messages only. -/
theorem mergeBounds_leaves (bounds : List Bound) :
    (mergeBounds bounds).Leaves Note.IsMessage := by
  intro n hn
  obtain ⟨b, -, rfl⟩ := List.mem_map.mp hn
  trivial

/-- So does writing what they are merged to. -/
theorem writeBounds_leaves (limit : Nat) (p : SpecProgress) :
    (p.writeBounds limit).Leaves Note.IsMessage := by
  unfold SpecProgress.writeBounds
  split
  · exact leaves_pure
  · refine (mergeBounds_leaves _).bind fun merged _ => ?_
    cases merged with
    | none => exact leaves_pure
    | some e => exact leaves_lift

/-- A spec leaves messages, its variable and the functions that its clauses ask for. -/
theorem applySpec_leaves {specs : List FilterSpec} (hSpec : spec ∈ specs) (p : Progress) :
    (s.applySpec o key p spec).Leaves (Note.IsOf specs o key) := by
  refine leaves_lift.bind fun _ _ => leaves_lift.bind fun _ _ => ?_
  refine (noteSelected_leaves hSpec).bind fun _ _ => Leaves.bind ?_ fun done _ =>
    (writeBounds_leaves _ done).mono Note.IsMessage.isOf
  exact leaves_foldlM fun p c hClause => applyClause_leaves hSpec hClause p

/-- The pattern of an observable leaves the notes that the observable may leave. -/
theorem subgraph_leaves (s : Settings) (r : Request) (o : Observable) :
    (s.subgraph r o).Leaves (Note.IsOf (r.specsOf (o.key r.keys)) o (o.key r.keys)) := by
  refine (leaves_forM fun v hv => ?_).bind fun _ _ => leaves_lift.bind fun draft _ => ?_
  · obtain ⟨hTerm, hVariable⟩ := List.mem_filter.mp hv
    exact leaves_note (.term hTerm hVariable)
  refine (leaves_foldlM fun p spec hSpec => applySpec_leaves hSpec p).bind fun _ _ => ?_
  exact leaves_lift.bind fun _ _ =>
    ((leaves_log _ _).mono Note.IsMessage.isOf).bind fun _ _ => leaves_pure

end

-- ---------------------------------------------------------------------------
-- All observables
-- ---------------------------------------------------------------------------

/-- The aggregates that the observables of a request ask for. -/
def Settings.aggregateCalls (s : Settings) (r : Request) : List FunctionCall :=
  Traced.calls .aggregate (r.observables.mapM (s.subgraph r)).notes

section

variable {s : Settings} {r : Request}

/-- The notes on all observables come from one of them each. -/
theorem notes_of_observables {n : Note}
    (h : n ∈ (r.observables.mapM (s.subgraph r)).notes) :
    ∃ o ∈ r.observables, Note.IsOf (r.specsOf (o.key r.keys)) o (o.key r.keys) n := by
  have hAll : (r.observables.mapM (s.subgraph r)).Leaves fun n =>
      ∃ o ∈ r.observables, Note.IsOf (r.specsOf (o.key r.keys)) o (o.key r.keys) n :=
    leaves_mapM fun o ho => (subgraph_leaves s r o).mono fun n hn => ⟨o, ho, hn⟩
  exact hAll n h

/-- A variable that is selected is a term of an observable, or the variable of one of its specs. -/
theorem exists_of_selectedVar {v : String}
    (h : v ∈ selectedVars (r.observables.mapM (s.subgraph r)).notes) :
    ∃ o ∈ r.observables, (v ∈ o.terms ∧ isVariableTerm v = true) ∨
      ∃ spec ∈ r.specsOf (o.key r.keys), ∃ var, spec.var = some var ∧ v = var.display := by
  obtain ⟨o, ho, hNote⟩ := notes_of_observables (mem_selectedVars_iff.mp h)
  refine ⟨o, ho, ?_⟩
  cases hNote with
  | term hTerm hVariable => exact .inl ⟨hTerm, hVariable⟩
  | boundVar hSpec hVar => exact .inr ⟨_, hSpec, _, hVar, rfl⟩

/-- A function that is asked for was asked for by a clause of a spec of an observable. -/
theorem exists_of_call {category : FunctionCategory} {c : FunctionCall}
    (h : c ∈ calls category (r.observables.mapM (s.subgraph r)).notes) :
    ∃ o ∈ r.observables, ∃ spec ∈ r.specsOf (o.key r.keys), ∃ var clause,
      spec.var = some var ∧ clause ∈ spec.clauses ∧ clause.AsksFor category ∧
      c = o.call (o.key r.keys) category spec var clause := by
  obtain ⟨hNote, hCategory⟩ := mem_calls_iff.mp h
  obtain ⟨o, ho, hNote⟩ := notes_of_observables hNote
  refine ⟨o, ho, ?_⟩
  cases hNote with
  | function hSpec hVar hClause hAsks =>
    cases hCategory
    exact ⟨_, hSpec, _, _, hVar, hClause, hAsks, rfl⟩

end

end SparqlSelect
