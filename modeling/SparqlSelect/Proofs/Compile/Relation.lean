import SparqlSelect.Compile.Query
import SparqlSelect.Proofs.Filter.Conditions
import SparqlSelect.Proofs.Query.Relation
import SparqlSelect.Proofs.Request.Place

/-!
# Two requests compiled side by side

Two requests are alike if they differ only in clauses, and each clause of one gives a condition that
can stand for the condition that the clause in its place gives. Then both are compiled by the same
steps: both fail, or both give queries that agree but for conditions.

A clause can stand for another if nothing but the text of its condition depends on which of the two
it is: not the notes that it leaves, not whether its condition is accepted.

* `Clause.Alike`, `Request.Alike` — clauses and requests that can stand for one another.
* `subgraph_alike` — the patterns of an observable.
* `buildRequest_alike` — the queries of two requests.
-/

namespace SparqlSelect

/-- Clauses of a spec that can stand for one another: alone or as a place they come to the same, and
as conditions to what is interchangeable. -/
structure Clause.Alike (R : String → String → Prop) (s : Settings) (spec : FilterSpec)
    (c c' : Clause) : Prop where
  name : c.name = c'.name
  isUnion : c.isUnion = c'.isUnion
  unplaced : Traced.Alike Eq (s.translate c none spec.datatype) (s.translate c' none spec.datatype)
  translated : Traced.Alike (Option.Rel (Interchangeable R))
    (s.translate c spec.var spec.datatype) (s.translate c' spec.var spec.datatype)
  /-- A range or a function depends on more than the text of the condition. -/
  special : ∀ kind, FilterKind.of c.name = .ok kind →
    kind = .range ∨ kind.category?.isSome = true → c = c'

/-- Specs that differ only in clauses that can stand for one another. -/
structure FilterSpec.Alike (R : String → String → Prop) (s : Settings) (spec spec' : FilterSpec) :
    Prop where
  same : spec' = { spec with clauses := spec'.clauses }
  clauses : List.Forall₂ (Clause.Alike R s spec) spec.clauses spec'.clauses

/-- Requests that differ only in specs that are alike. -/
structure Request.Alike (R : String → String → Prop) (s : Settings) (r r' : Request) : Prop where
  same : r' = { r with filters := r'.filters }
  filters : List.Forall₂
    (fun entry entry' => entry.1 = entry'.1 ∧
      List.Forall₂ (FilterSpec.Alike R s) entry.2 entry'.2) r.filters r'.filters

section

variable {R : String → String → Prop} {s : Settings}

/-- Being related, if there is something, is reflexive where the relation is. -/
theorem optionRel_refl {α : Type} {P : α → α → Prop} (hP : ∀ a, P a a) (x : Option α) :
    Option.Rel P x x := by
  cases x with
  | none => exact .none
  | some a => exact .some (hP a)

/-- A clause is alike to itself. -/
theorem Clause.Alike.refl (hR : ∀ e, R e e) (spec : FilterSpec) (c : Clause) :
    c.Alike R s spec c where
  name := rfl
  isUnion := rfl
  unplaced := .refl (fun _ => rfl) _
  translated := .refl (optionRel_refl (Interchangeable.refl hR)) _
  special _ _ _ := rfl

-- ---------------------------------------------------------------------------
-- Drafts
-- ---------------------------------------------------------------------------

/-- Drafts that agree but for conditions. -/
structure Draft.Alike (R : String → String → Prop) (d d' : Draft) : Prop where
  group : d.group.Alike R d'.group
  subject : d.subject = d'.subject

namespace Draft.Alike

variable {d d' : Draft}

/-- Drafts that are given elements that are alike stay alike. -/
theorem add {e e' : Element} (h : d.Alike R d') (he : e.Alike R e') :
    (d.add e).Alike R (d'.add e') :=
  ⟨h.group.add he, h.subject⟩

/-- A step that adds what was checked is the same step on both drafts. -/
theorem checked {α : Type} {x : Except Failure α} {f g : α → Draft} (h : ∀ a, (f a).Alike R (g a)) :
    SparqlSelect.Alike (Draft.Alike R) (x >>= fun a => .ok (f a)) (x >>= fun a => .ok (g a)) :=
  (SparqlSelect.Alike.refl (fun _ => rfl) x).bind fun a _ hab => hab ▸ .ok (h a)

/-- The same triple is checked and written in both. -/
theorem triple (h : d.Alike R d') (subject predicate object : Json) :
    SparqlSelect.Alike (Draft.Alike R) (d.triple subject predicate object)
      (d'.triple subject predicate object) :=
  checked fun t => ⟨(h.add (.triple t)).group, rfl⟩

/-- So is a triple with the kept subject, since both keep the same. -/
theorem also (h : d.Alike R d') (subject predicate object : Json) :
    SparqlSelect.Alike (Draft.Alike R) (d.also subject predicate object)
      (d'.also subject predicate object) := by
  unfold Draft.also
  rw [h.subject]
  split
  · exact .failed _ _
  · exact checked fun t => h.add (.triple t)

/-- So is an optional triple. -/
theorem optional (h : d.Alike R d') (subject predicate object : Json) :
    SparqlSelect.Alike (Draft.Alike R) (d.optional subject predicate object)
      (d'.optional subject predicate object) :=
  checked fun t => h.add (.optional (.mk (.cons (.triple t) .nil)))

/-- Conditions that are interchangeable are both written or both rejected. -/
theorem filter {e e' : String} (h : d.Alike R d') (he : Interchangeable R e e') (limit : Nat) :
    SparqlSelect.Alike (Draft.Alike R) (d.filter limit (.str e)) (d'.filter limit (.str e')) := by
  have hCheck : SparqlSelect.Alike R (Kind.checkWithin limit Kind.forFilter (.str e))
      (Kind.checkWithin limit Kind.forFilter (.str e')) := by
    simp only [Kind.checkWithin, he.accepted limit]
    split
    · exact .ok he.related
    · exact .failed _ _
    · exact .failed _ _
  exact hCheck.bind fun x y hxy => .ok (h.add (.filter hxy))

/-- Unions of branches that are alike are written in both. -/
theorem union {branches branches' : List Branch} (h : d.Alike R d')
    (hB : List.Forall₂ (Branch.Alike R) branches branches') :
    (d.union branches).Alike R (d'.union branches') := by
  unfold Draft.union
  cases hB with
  | nil => exact h
  | cons hHead hRest => exact h.add (.union (.cons hHead (Branch.allAlike_iff.mpr hRest)))

end Draft.Alike

-- ---------------------------------------------------------------------------
-- Clauses and specs
-- ---------------------------------------------------------------------------

/-- Drafts that agree but for conditions, with alternatives that do. -/
structure Progress.Alike (R : String → String → Prop) (p p' : Progress) : Prop where
  draft : p.draft.Alike R p'.draft
  branches : List.Forall₂ (Branch.Alike R) p.branches p'.branches

/-- The same with equal bounds. -/
structure SpecProgress.Alike (R : String → String → Prop) (p p' : SpecProgress) : Prop where
  toProgress : p.toProgress.Alike R p'.toProgress
  bounds : p.bounds = p'.bounds

namespace Progress.Alike

variable {p p' : Progress} {spec : FilterSpec} {c c' : Clause}

/-- A step that two drafts take alike is taken alike by what is known of the spec. -/
theorem write {step step' : Draft → Except Failure Draft} (h : p.Alike R p')
    (hStep : SparqlSelect.Alike (Draft.Alike R) (step p.draft) (step' p'.draft)) :
    SparqlSelect.Alike (Progress.Alike R) (p.write step) (p'.write step') :=
  hStep.map fun _ _ hd => ⟨hd, h.branches⟩

/-- The same geospatial triple is written in both, or kept for the union in both. -/
theorem place (h : p.Alike R p') (hUnion : c.isUnion = c'.isUnion)
    (subject function fragment : String) :
    SparqlSelect.Alike (Progress.Alike R) (p.place c subject function fragment)
      (p'.place c' subject function fragment) := by
  unfold Progress.place
  rw [hUnion]
  split
  · have hStart : (Draft.start none).Alike R (Draft.start none) := ⟨.mk .nil, rfl⟩
    refine (hStart.triple _ _ _).map fun d d' hd => ⟨h.draft, ?_⟩
    exact List.rel_append h.branches (.cons (.group hd.group) .nil)
  · exact h.write (h.draft.also _ _ _)

/-- Geospatial clauses that are alike give the same triple. -/
theorem placeClause (h : p.Alike R p') (hc : c.Alike R s spec c') (subject : String) :
    Traced.Alike (Progress.Alike R) (s.placeClause spec subject p c)
      (s.placeClause spec subject p' c') := by
  refine hc.unplaced.bind ?_
  rintro fragment _ rfl
  cases fragment with
  | none => exact .pure h
  | some fragment =>
    refine (Traced.Alike.refl (fun _ => rfl) _).bind ?_
    rintro function _ rfl
    exact .lift (h.place hc.isUnion _ _ _)

end Progress.Alike

namespace SpecProgress.Alike

variable {spec : FilterSpec} {o : Observable} {key : String} {c c' : Clause} {p p' : SpecProgress}

/-- Constraints that are alike are written or kept alike; a bound has to be the same in both. -/
theorem constrain {kind : FilterKind} (h : p.Alike R p') (hc : c.Alike R s spec c')
    (hRange : kind = .range → c = c') :
    Traced.Alike (SpecProgress.Alike R) (s.constrain spec kind p c)
      (s.constrain spec kind p' c') := by
  by_cases hKind : kind = .range
  · -- bounds hold the value of the clause, so here it has to be the same clause
    obtain rfl := hRange hKind
    refine Traced.Alike.same _ fun fragment _ => ?_
    cases fragment with
    | none => exact .pure h
    | some fragment =>
      rw [hKind]
      exact .pure ⟨h.toProgress, by rw [h.bounds]⟩
  · have hOther : (kind == .range) = false := beq_eq_false_iff_ne.mpr hKind
    refine hc.translated.bind ?_
    rintro _ _ (he | _)
    · dsimp only
      rw [hOther]
      refine (Traced.Alike.lift (h.toProgress.write (h.toProgress.draft.filter he _))).bind ?_
      exact fun done done' hDone => .pure ⟨hDone, h.bounds⟩
    · exact .pure h

/-- A clause and one that can stand for it come to the same, but for the condition. -/
theorem applyClause (h : p.Alike R p') (hc : c.Alike R s spec c') :
    Traced.Alike (SpecProgress.Alike R) (s.applyClause spec o key p c)
      (s.applyClause spec o key p' c') := by
  unfold Settings.applyClause
  have hSelected : c.isSelected = c'.isSelected := by rw [Clause.isSelected, hc.name]; rfl
  rw [hSelected]
  split
  · exact .pure h
  refine Traced.Alike.same _ fun isGeo _ => ?_
  split
  · refine (h.toProgress.placeClause hc _).bind fun done done' hDone => ?_
    exact .pure ⟨hDone, h.bounds⟩
  rw [← hc.name]
  refine Traced.Alike.same _ fun kind hKind => ?_
  have hSpecial := hc.special kind (raise_eq_ok_iff.mp hKind)
  cases hCategory : kind.category? with
  | some category =>
    -- the note of a function holds its name, so here too it has to be the same clause
    obtain rfl := hSpecial (.inr (by rw [hCategory]; rfl))
    exact Traced.Alike.same _ fun _ _ => .pure h
  | none => exact h.constrain hc fun hRange => hSpecial (.inl hRange)

/-- The bounds are the same in both, so they are merged to the same condition. -/
theorem writeBounds (h : p.Alike R p') (hR : ∀ e, R e e) (limit : Nat) :
    Traced.Alike (Progress.Alike R) (p.writeBounds limit) (p'.writeBounds limit) := by
  unfold SpecProgress.writeBounds
  rw [h.bounds]
  split
  · exact .pure h.toProgress
  refine Traced.Alike.same _ fun merged _ => ?_
  cases merged with
  | none => exact .pure h.toProgress
  | some e =>
    exact .lift (h.toProgress.write (h.toProgress.draft.filter (Interchangeable.refl hR e) limit))

end SpecProgress.Alike

/-- The triple of a spec is the same in both. -/
theorem writeTriple_alike {spec : FilterSpec} {subject predicate : String} {d d' : Draft}
    (h : d.Alike R d') : SparqlSelect.Alike (Draft.Alike R) (spec.writeTriple subject predicate d)
      (spec.writeTriple subject predicate d') := by
  unfold FilterSpec.writeTriple
  split
  · exact .ok h
  · split
    · exact h.optional _ _ _
    · exact h.also _ _ _

/-- Specs that are alike are written alike. -/
theorem applySpec_alike {o : Observable} {key : String} {spec spec' : FilterSpec}
    {p p' : Progress} (hR : ∀ e, R e e) (h : p.Alike R p') (hSpec : spec.Alike R s spec') :
    Traced.Alike (Progress.Alike R) (s.applySpec o key p spec) (s.applySpec o key p' spec') := by
  obtain ⟨hSame, hClauses⟩ := hSpec
  unfold Settings.applySpec
  generalize spec'.clauses = clauses' at hSame hClauses
  subst hSame
  refine Traced.Alike.same _ fun predicate _ => ?_
  refine (Traced.Alike.lift (h.write (writeTriple_alike h.draft))).bind fun q q' hq => ?_
  refine Traced.Alike.same _ fun _ _ => ?_
  -- the bounds start empty in both runs
  have hStart : SpecProgress.Alike R { q with bounds := [] } { q' with bounds := [] } := ⟨hq, rfl⟩
  have hDone := Traced.Alike.foldlM hClauses hStart
    (f := s.applyClause spec o key) (g := s.applyClause spec o key)
    fun c c' hc p p' hp => hp.applyClause hc
  exact hDone.bind fun done done' hDone => hDone.writeBounds hR _

-- ---------------------------------------------------------------------------
-- Observables
-- ---------------------------------------------------------------------------

/-- Patterns that agree but for conditions, with the same modifiers. -/
structure Subgraph.Alike (R : String → String → Prop) (sub sub' : Subgraph) : Prop where
  group : sub.group.Alike R sub'.group
  modifiers : sub.modifiers = sub'.modifiers

/-- Patterns that are alike make branches that are. -/
theorem Subgraph.Alike.asBranch {sub sub' : Subgraph} (h : sub.Alike R sub') :
    sub.asBranch.Alike R sub'.asBranch := by
  unfold Subgraph.asBranch
  rw [h.modifiers]
  split
  · exact .group h.group
  · exact .select h.group

/-- Requests that are alike have specs that are, one by one. -/
theorem Request.Alike.related {r r' : Request} (h : r.Alike R s r') :
    r.Related (FilterSpec.Alike R s) r' := ⟨h.same, h.filters⟩

/-- The specs of a key are alike one by one. -/
theorem Request.Alike.specsOf {r r' : Request} (h : r.Alike R s r') (key : String) :
    List.Forall₂ (FilterSpec.Alike R s) (r.specsOf key) (r'.specsOf key) := h.related.specsOf key

/-- The patterns of an observable under two requests that are alike. -/
theorem subgraph_alike {r r' : Request} {o : Observable} (hR : ∀ e, R e e)
    (h : r.Alike R s r') :
    Traced.Alike (Subgraph.Alike R) (s.subgraph r o) (s.subgraph r' o) := by
  have hKeys : r'.keys = r.keys := by rw [h.same]
  unfold Settings.subgraph
  dsimp only
  rw [hKeys]
  refine Traced.Alike.same _ fun _ _ => ?_
  -- the two runs start from one draft, which is alike to itself as `R` holds of equal expressions
  refine Traced.Alike.same _ fun draft _ => ?_
  have hDraft : draft.Alike R draft := ⟨.refl hR _, rfl⟩
  have hDone := Traced.Alike.foldlM (h.specsOf (o.key r.keys))
    (f := s.applySpec o (o.key r.keys)) (g := s.applySpec o (o.key r.keys))
    (show Progress.Alike R ⟨draft, []⟩ ⟨draft, []⟩ from ⟨hDraft, .nil⟩)
    fun spec spec' hSpec p p' hp => applySpec_alike hR hp hSpec
  refine hDone.bind fun done done' hDone => ?_
  have hUnion := hDone.draft.union hDone.branches
  refine Traced.Alike.same _ fun modifiers _ => ?_
  rw [hUnion.group.length_eq]
  exact Traced.Alike.same _ fun _ _ => .pure ⟨hUnion.group, rfl⟩

/-- Patterns that are alike are put together to groups that are. -/
theorem assemble_alike {subgraphs subgraphs' : List Subgraph}
    (h : List.Forall₂ (Subgraph.Alike R) subgraphs subgraphs') :
    (assemble subgraphs).Alike R (assemble subgraphs') := by
  have hBranches : List.Forall₂ (Branch.Alike R) (subgraphs.map Subgraph.asBranch)
      (subgraphs'.map Subgraph.asBranch) := List.rel_map (fun _ _ hSub => hSub.asBranch) h
  rw [← Branch.allAlike_iff] at hBranches
  -- no branch, a single one, which may be left as it is, and several
  cases h with
  | nil => exact .mk (.cons (.union hBranches) .nil)
  | cons hFirst hRest =>
    cases hRest with
    | nil =>
      rw [assemble, assemble, hFirst.modifiers]
      split
      · exact hFirst.group
      · exact .mk (.cons (.nested hFirst.asBranch) .nil)
    | cons hSecond hOthers =>
      rw [assemble, assemble]
      · exact .mk (.cons (.union hBranches) .nil)
      · simp
      · simp

-- ---------------------------------------------------------------------------
-- Stages of a query
-- ---------------------------------------------------------------------------

namespace SelectQuery.Alike

variable {q q' : SelectQuery}

/-- Selecting an item keeps queries alike. -/
theorem project (h : q.Alike R q') (item : String) :
    (q.project item).Alike R (q'.project item) := by
  unfold SelectQuery.project
  rw [h.projection]
  split
  · exact h
  · exact ⟨h.prefixes, rfl, h.body, h.modifiers, h.distinct⟩

/-- Queries that are alike stay so with the same aggregates. -/
theorem extend (h : q.Alike R q') (hR : ∀ e, R e e) (a : Aggregation) :
    (q.extend a).Alike R (q'.extend a) := by
  have hAdd : (q.add (.nested (.select a.query))).Alike R
      (q'.add (.nested (.select a.query))) :=
    ⟨h.prefixes, h.projection, h.body.add (.nested (Branch.Alike.refl hR _)), h.modifiers,
      h.distinct⟩
  unfold SelectQuery.extend
  generalize q.add _ = p at hAdd
  generalize q'.add _ = p' at hAdd
  induction a.aliases generalizing p p' with
  | nil => exact hAdd
  | cons item rest ih => exact ih _ _ (hAdd.project item)

/-- The aggregates do not depend on conditions, so they are the same for both. -/
theorem withAggregates (h : q.Alike R q') (hR : ∀ e, R e e)
    (groups : List (String × List FunctionCall)) :
    Traced.Alike (fun x y => x.1.Alike R y.1 ∧ x.2 = y.2) (q.withAggregates groups)
      (q'.withAggregates groups) := by
  refine Traced.Alike.same _ fun found _ => ?_
  cases found with
  | none => exact .pure ⟨h, rfl⟩
  | some a => exact Traced.Alike.same _ fun _ _ => .pure ⟨h.extend hR a, rfl⟩

end SelectQuery.Alike

/-- Where a binding goes does not depend on conditions. -/
theorem bindingPlace_eq {g g' : Group} (h : g.Alike R g') (c : FunctionCall) :
    bindingPlace g c = bindingPlace g' c := by
  have hOptional : g.elements.findIdx? (·.isOptionalWith c.var) =
      g'.elements.findIdx? (·.isOptionalWith c.var) :=
    findIdx?_eq_of_forall₂ h.elements fun e e' he => by
      cases he with
      | optional hBody => simp only [Element.isOptionalWith, hBody.variables_eq]
      | _ => rfl
  have hTriple : g.elements.findIdx? (·.isTripleWith (bracketUrl c.uri) c.var) =
      g'.elements.findIdx? (·.isTripleWith (bracketUrl c.uri) c.var) :=
    findIdx?_eq_of_forall₂ h.elements fun e e' he => by cases he <;> rfl
  unfold bindingPlace
  rw [hOptional, hTriple, h.variables_eq]

/-- A binding that is put at the same place keeps groups alike. -/
theorem putBinding_alike {g g' : Group} (h : g.Alike R g') (place : Place) (b : Binding) :
    (g.putBinding place b).Alike R (g'.putBinding place b) := by
  cases place with
  | after i => exact h.insertAfter (.bind b) i
  | atEnd => exact h.add (.bind b)

/-- A place is found in both groups or in neither. -/
theorem checkPlace_eq {g g' : Group} (h : g.Alike R g') (place : Place) :
    g.checkPlace place = g'.checkPlace place := by
  cases place with
  | after i => simp only [Group.checkPlace, h.elements.length_eq]
  | atEnd => rfl

/-- A call does the same to queries that are alike. -/
theorem inject_alike {q q' : SelectQuery} (h : q.Alike R q') (c : FunctionCall) :
    Traced.Alike (fun x y => x.1.Alike R y.1 ∧ x.2 = y.2) (q.inject c) (q'.inject c) := by
  unfold SelectQuery.inject
  rcases optionRel_iff.mp (h.body.ofOrigin? (some c.key)) with
    ⟨hg, hg'⟩ | ⟨g, g', hg, hg', hGroup⟩
  · rw [hg, hg']
    exact Traced.Alike.same _ fun _ _ => .pure ⟨h, rfl⟩
  -- alike groups have the same bindings and places, so both runs take the same branch
  rw [hg, hg']
  dsimp only
  rw [hGroup.binds_eq, bindingPlace_eq hGroup c]
  split
  · exact .pure ⟨h.project _, rfl⟩
  split
  · exact Traced.Alike.same _ fun _ _ => .pure ⟨h, rfl⟩
  · rename_i place _
    rw [checkPlace_eq hGroup place]
    refine Traced.Alike.same _ fun b _ => Traced.Alike.same _ fun _ _ =>
      Traced.Alike.same _ fun _ _ => .pure ⟨?_, rfl⟩
    have hBody : (q.body.updateOrigin (some c.key) (·.putBinding place b)).Alike R
        (q'.body.updateOrigin (some c.key) (·.putBinding place b)) :=
      h.body.updateOrigin fun g g' hg => putBinding_alike hg place b
    refine SelectQuery.Alike.project ?_ _
    exact ⟨h.prefixes, h.projection, hBody, h.modifiers, h.distinct⟩

/-- Queries that are alike, after the same calls were and were not injected. -/
structure Injection.Alike (R : String → String → Prop) (i i' : Injection) : Prop where
  query : i.query.Alike R i'.query
  injected : i.injected = i'.injected
  skipped : i.skipped = i'.skipped

/-- A run of calls goes the same way on queries that are alike, up to a failure if there is one. -/
theorem run_alike (calls : List FunctionCall) {i i' : Injection} (h : i.Alike R i') :
    (Injection.run calls i).1.Alike R (Injection.run calls i').1 ∧
      Traced.Alike (fun _ _ => True) (Injection.run calls i).2 (Injection.run calls i').2 := by
  induction calls generalizing i i' with
  | nil => exact ⟨h, .pure trivial⟩
  | cons c rest ih =>
    obtain ⟨hNotes, hOutcome⟩ := inject_alike h.query c
    rw [Injection.run, Injection.run]
    generalize i.query.inject c = x at hNotes hOutcome
    generalize i'.query.inject c = y at hNotes hOutcome
    obtain ⟨notes, x⟩ := x
    obtain ⟨notes', y⟩ := y
    dsimp only at hNotes hOutcome
    subst hNotes
    cases hOutcome with
    | failed e e' =>
      -- both runs stop here, with what they have done so far
      exact ⟨h, rfl, .failed e e'⟩
    | @ok a b hab =>
      obtain ⟨q, done⟩ := a
      obtain ⟨q', done'⟩ := b
      obtain ⟨hQuery, hDone⟩ := hab
      dsimp only at hQuery hDone
      subst hDone
      have hNext : (i.next c q done).Alike R (i'.next c q' done) := by
        unfold Injection.next
        split
        · exact ⟨hQuery, by rw [h.injected], h.skipped⟩
        · exact ⟨hQuery, h.injected, by rw [h.skipped]⟩
      obtain ⟨hLast, hTrace⟩ := ih hNext
      exact ⟨hLast, by simp only [hTrace.notes], hTrace.outcome⟩

/-- All calls do the same to queries that are alike. -/
theorem withTemporals_alike {q q' : SelectQuery} (h : q.Alike R q') (calls : List FunctionCall) :
    Traced.Alike (Injection.Alike R) (q.withTemporals calls) (q'.withTemporals calls) := by
  obtain ⟨hLast, hTrace⟩ := run_alike calls
    (show (Injection.start q).Alike R (.start q') from ⟨h, rfl, rfl⟩)
  exact hTrace.bind fun _ _ _ => .pure hLast

/-- The queries of patterns that are alike, with the same notes, are alike. -/
theorem observableQuery_alike {r r' : Request} {subgraphs subgraphs' : List Subgraph}
    {notes : List Note} (hR : ∀ e, R e e) (hSame : r' = { r with filters := r'.filters })
    (hSubs : List.Forall₂ (Subgraph.Alike R) subgraphs subgraphs') :
    Traced.Alike (SelectQuery.Alike R) (s.observableQuery r subgraphs notes)
      (s.observableQuery r' subgraphs' notes) := by
  have hModifiers : r'.modifiers = r.modifiers := by rw [hSame]; rfl
  unfold Settings.observableQuery
  rw [hModifiers]
  refine Traced.Alike.same _ fun _ _ => Traced.Alike.same _ fun modifiers _ => ?_
  have hStart : (s.assembledQuery subgraphs notes modifiers).Alike R
      (s.assembledQuery subgraphs' notes modifiers) :=
    ⟨rfl, rfl, assemble_alike hSubs, rfl, rfl⟩
  refine (hStart.withAggregates hR _).bind ?_
  rintro ⟨extended, agg⟩ ⟨extended', agg'⟩ ⟨hExtended, hAgg⟩
  dsimp only at hExtended hAgg
  subst hAgg
  refine (withTemporals_alike hExtended _).bind fun done done' hDone => ?_
  -- the check of the projection sees variables only, which alike bodies share
  have hCheck : done.query.checkProjection = done'.query.checkProjection := by
    funext aliases
    unfold SelectQuery.checkProjection SelectQuery.undeclared
    rw [hDone.query.projection, hDone.query.body.variables_eq]
  rw [hCheck, hDone.query.projection, hDone.injected, hSubs.length_eq]
  exact Traced.Alike.same _ fun _ _ => Traced.Alike.same _ fun _ _ => .pure hDone.query

-- ---------------------------------------------------------------------------
-- The search by place
-- ---------------------------------------------------------------------------

/-- Clauses of a search by place that are alike are applied alike. -/
theorem applyLocationClause_alike {spec : FilterSpec} {isGeo : Bool} {entity : String}
    {c c' : Clause} {p p' : Progress} (h : p.Alike R p') (hc : c.Alike R s spec c') :
    Traced.Alike (Progress.Alike R) (s.applyLocationClause spec isGeo entity p c)
      (s.applyLocationClause spec isGeo entity p' c') := by
  unfold Settings.applyLocationClause
  have hSelected : c.isSelected = c'.isSelected := by rw [Clause.isSelected, hc.name]; rfl
  rw [hSelected]
  split
  · exact .pure h
  split
  · exact h.placeClause hc _
  refine hc.translated.bind ?_
  rintro _ _ (he | _)
  · exact .lift (h.write (h.draft.filter he _))
  · exact .pure h

/-- So are specs of a search by place. -/
theorem applyLocationSpec_alike {entity : String} {spec spec' : FilterSpec} {p p' : Progress}
    (h : p.Alike R p') (hSpec : spec.Alike R s spec') :
    Traced.Alike (Progress.Alike R) (s.applyLocationSpec entity p spec)
      (s.applyLocationSpec entity p' spec') := by
  obtain ⟨hSame, hClauses⟩ := hSpec
  unfold Settings.applyLocationSpec
  generalize spec'.clauses = clauses' at hSame hClauses
  subst hSame
  refine Traced.Alike.same _ fun isGeo _ => ?_
  exact Traced.Alike.foldlM hClauses h fun c c' hc p p' hp => applyLocationClause_alike hp hc

/-- The searches by place of requests that are alike. -/
theorem locationQuery_alike {r r' : Request} (hR : ∀ e, R e e) (h : r.Alike R s r') :
    Traced.Alike (SelectQuery.Alike R) (s.locationQuery r) (s.locationQuery r') := by
  have hPattern : r'.readPattern = r.readPattern := by rw [h.same]; rfl
  have hLength : r'.filters.length = r.filters.length := h.filters.length_eq.symm
  have hPlaced : List.Forall₂ (fun x y => x.1 = y.1 ∧ x.2.Alike R s y.2) r.placedSpecs
      r'.placedSpecs := h.related.placedSpecs
  unfold Settings.locationQuery
  rw [hPattern, hLength]
  refine Traced.Alike.same _ fun pattern _ => Traced.Alike.same _ fun draft _ => ?_
  have hDraft : draft.Alike R draft := ⟨.refl hR _, rfl⟩
  have hStart : Progress.Alike R ⟨draft, []⟩ ⟨draft, []⟩ := ⟨hDraft, .nil⟩
  refine (Traced.Alike.foldlM hPlaced hStart ?_).bind fun done done' hDone => ?_
  · -- the loop over the placed specs, with entities that are the same
    rintro ⟨entity, spec⟩ ⟨entity', spec'⟩ ⟨hEntity, hSpec⟩ p p' hp
    dsimp only at hEntity hSpec
    subst hEntity
    exact applyLocationSpec_alike hp hSpec
  have hUnion := hDone.draft.union hDone.branches
  refine Traced.Alike.same _ fun sample _ => Traced.Alike.same _ fun terms _ => ?_
  exact Traced.Alike.same _ fun _ _ => .pure ⟨rfl, rfl, hUnion.group, rfl, rfl⟩

-- ---------------------------------------------------------------------------
-- Requests
-- ---------------------------------------------------------------------------

/-- Requests that are alike either both have no query or have queries that are alike. -/
theorem buildRequest_alike {r r' : Request} (hR : ∀ e, R e e) (h : r.Alike R s r') :
    Traced.Alike (SelectQuery.Alike R) (s.buildRequest r) (s.buildRequest r') := by
  have hObservables : r'.observables = r.observables := by rw [h.same]
  have hLocation : r'.hasLocationFilters = r.hasLocationFilters := h.related.hasLocationFilters
  unfold Settings.buildRequest
  rw [hObservables, hLocation]
  have hSubs : Traced.Alike (List.Forall₂ (Subgraph.Alike R))
      (r.observables.mapM (s.subgraph r)) (r.observables.mapM (s.subgraph r')) :=
    Traced.Alike.mapM (List.forall₂_same.mpr fun _ _ => rfl) fun o o' (hEq : o = o') =>
      hEq ▸ subgraph_alike hR h
  have hBoth : Traced.Alike (fun x y => List.Forall₂ (Subgraph.Alike R) x.1 y.1 ∧ x.2 = y.2)
      (r.observables.mapM (s.subgraph r)).withNotes
      (r.observables.mapM (s.subgraph r')).withNotes :=
    ⟨hSubs.notes, hSubs.outcome.map fun a b hab => ⟨hab, hSubs.notes⟩⟩
  refine hBoth.bind ?_
  rintro ⟨subgraphs, notes⟩ ⟨subgraphs', notes'⟩ ⟨hLists, hNotes⟩
  dsimp only at hLists hNotes
  subst hNotes
  -- whether there are subgraphs, and what was noted, is the same in both runs
  have hEmpty : subgraphs'.isEmpty = subgraphs.isEmpty := by cases hLists <;> rfl
  dsimp only
  rw [hEmpty]
  split
  · exact observableQuery_alike hR h.same hLists
  · split
    · exact locationQuery_alike hR h
    · exact ⟨rfl, .failed _ _⟩

end

end SparqlSelect
