import SparqlSelect.Compile.Query
import SparqlSelect.Proofs.Fragment.Kinds
import SparqlSelect.Proofs.Query.Tree
import SparqlSelect.Proofs.Traced.Success

/-!
# What drafts write

Fragments come into a query through drafts and bindings, and both check them. The check is a step
lemma: whatever a draft adds is drafted, a triple or a condition that fits or something built of
them, and the group stays the one of its key. From there the invariant goes through clauses, specs
and whole observables, and through the branches of the aggregates and the search by place.

* `subgraph_drafted`, `aggregation_drafted`, `locationQuery_drafted` — what is written by drafts
  alone.
-/

namespace SparqlSelect

/-- The terms of a triple are of the kinds for its slots. -/
structure Triple.Fits (t : Triple) : Prop where
  subject : Kind.acceptsAny Kind.forSubject t.subject = true
  predicate : Kind.acceptsAny Kind.forPredicate t.predicate = true
  object : Kind.acceptsAny Kind.forObject t.object = true

/-- A binding gives the value of a function to a variable. -/
structure Binding.Fits (b : Binding) : Prop where
  expression : Kind.acceptsAny Kind.forBind b.expression = true
  var : Kind.acceptsAny [.var] b.var = true

/-- The fragments of an element itself are of the kinds for their places. -/
def Element.Fits : Element → Prop
  | .triple t => t.Fits
  | .filter e => Kind.acceptsAny Kind.forFilter e = true
  | .bind b => b.Fits
  | .optional _ | .union _ | .nested _ => True

/-- What a draft may write: elements that fit and are no bindings. -/
def Element.IsDrafted : Element → Prop
  | .triple t => t.Fits
  | .filter e => Kind.acceptsAny Kind.forFilter e = true
  | .bind _ => False
  | .optional _ | .union _ | .nested _ => True

/-- What a draft holds fits its place, and a draft holds no binding. -/
theorem Element.IsDrafted.fits : ∀ {e : Element}, e.IsDrafted → e.Fits
  | .triple _, h => h
  | .filter _, h => h
  | .bind _, h => h.elim
  | .optional _, _ | .union _, _ | .nested _, _ => trivial

-- ---------------------------------------------------------------------------
-- One step of a draft
-- ---------------------------------------------------------------------------

/-- A triple passes exactly if its three terms are texts of kinds for their places. -/
theorem checkTriple_eq_ok_iff {subject predicate object : Json} {t : Triple} :
    checkTriple subject predicate object = .ok t ↔
      subject = .str t.subject ∧ predicate = .str t.predicate ∧ object = .str t.object ∧
        t.Fits := by
  simp only [checkTriple, bind_eq_ok_iff, Kind.check_eq_ok_iff, Except.ok.injEq]
  constructor
  · rintro ⟨s, ⟨hs, hs'⟩, p, ⟨hp, hp'⟩, o, ⟨ho, ho'⟩, rfl⟩
    exact ⟨hs, hp, ho, hs', hp', ho'⟩
  · rintro ⟨hs, hp, ho, hFits⟩
    exact ⟨_, ⟨hs, hFits.subject⟩, _, ⟨hp, hFits.predicate⟩, _, ⟨ho, hFits.object⟩, rfl⟩

/-- What was checked comes out as the triple of its terms. -/
theorem checkTriple_str {t : Triple} {subject predicate object : String}
    (h : checkTriple (.str subject) (.str predicate) (.str object) = .ok t) :
    t = ⟨subject, predicate, object⟩ := by
  obtain ⟨hSubject, hPredicate, hObject, -⟩ := checkTriple_eq_ok_iff.mp h
  cases hSubject
  cases hPredicate
  cases hObject
  rfl

/-- A binding passes exactly if it computes a function into a variable. -/
theorem checkBinding_eq_ok_iff {expression var : Json} {b : Binding} :
    checkBinding expression var = .ok b ↔
      expression = .str b.expression ∧ var = .str b.var ∧ b.Fits := by
  simp only [checkBinding, bind_eq_ok_iff, Kind.check_eq_ok_iff, Except.ok.injEq]
  constructor
  · rintro ⟨e, ⟨he, he'⟩, v, ⟨hv, hv'⟩, rfl⟩
    exact ⟨he, hv, he', hv'⟩
  · rintro ⟨he, hv, hFits⟩
    exact ⟨_, ⟨he, hFits.expression⟩, _, ⟨hv, hFits.var⟩, rfl⟩

namespace Draft

variable {d d' : Draft} {limit : Nat} {subject predicate object expression : Json}

/-- A triple is written behind all others, and its subject is kept. -/
theorem triple_eq_ok_iff :
    d.triple subject predicate object = .ok d' ↔
      ∃ t, checkTriple subject predicate object = .ok t ∧
        d' = { d.add (.triple t) with subject := some t.subject } := by
  simp only [triple, bind_eq_ok_iff, Except.ok.injEq, eq_comm (a := d')]

/-- A triple that may leave out its subject adds a triple that was checked. -/
theorem also_eq_ok (h : d.also subject predicate object = .ok d') :
    ∃ s t, (subject.isSet = true → s = subject) ∧ checkTriple s predicate object = .ok t ∧
      d' = d.add (.triple t) := by
  unfold also at h
  split at h
  · cases h
  · rename_i s hSubject
    obtain ⟨t, ht, h⟩ := bind_eq_ok_iff.mp h
    cases h
    refine ⟨s, t, fun hSet => ?_, ht, rfl⟩
    rw [if_pos hSet] at hSubject
    exact (Option.some.inj hSubject).symm

/-- An optional triple is written in a group of its own, and its subject is not kept. -/
theorem optional_eq_ok_iff :
    d.optional subject predicate object = .ok d' ↔
      ∃ t, checkTriple subject predicate object = .ok t ∧
        d' = d.add (.optional ⟨none, [.triple t]⟩) := by
  simp only [optional, bind_eq_ok_iff, Except.ok.injEq, eq_comm (a := d')]

/-- A condition is written exactly if it is accepted within the limit. -/
theorem filter_eq_ok_iff :
    d.filter limit expression = .ok d' ↔
      ∃ e, expression = .str e ∧ Kind.acceptsAnyWithin limit Kind.forFilter e = .ok true ∧
        d' = d.add (.filter e) := by
  simp only [filter, bind_eq_ok_iff, Kind.checkWithin_eq_ok_iff, Except.ok.injEq,
    eq_comm (a := d'), and_assoc]

/-- A draft of the group of a key, in which everything was written by drafts. -/
structure IsDrafted (origin : Option String) (d : Draft) : Prop where
  origin : d.group.origin = origin
  elements : d.group.Everywhere Element.IsDrafted

variable {origin : Option String}

/-- An empty draft of an origin is a draft of it. -/
theorem isDrafted_start (origin : Option String) : (start origin).IsDrafted origin :=
  ⟨rfl, Group.everywhere_empty⟩

/-- A draft may be given an element of drafted groups. -/
theorem IsDrafted.add {e : Element} (hd : d.IsDrafted origin)
    (he : e.Everywhere Element.IsDrafted) : (d.add e).IsDrafted origin :=
  ⟨hd.origin, Group.everywhere_add.mpr ⟨hd.elements, he⟩⟩

/-- A triple that is written leaves a draft. -/
theorem IsDrafted.triple (hd : d.IsDrafted origin)
    (h : d.triple subject predicate object = .ok d') : d'.IsDrafted origin := by
  obtain ⟨t, ht, rfl⟩ := triple_eq_ok_iff.mp h
  have hAdd : (d.add (.triple t)).IsDrafted origin :=
    hd.add (Element.everywhere_triple.mpr (checkTriple_eq_ok_iff.mp ht).2.2.2)
  exact ⟨hAdd.origin, hAdd.elements⟩

/-- So does a triple with the kept subject. -/
theorem IsDrafted.also (hd : d.IsDrafted origin) (h : d.also subject predicate object = .ok d') :
    d'.IsDrafted origin := by
  obtain ⟨s, t, -, ht, rfl⟩ := also_eq_ok h
  exact hd.add (Element.everywhere_triple.mpr (checkTriple_eq_ok_iff.mp ht).2.2.2)

/-- So does an optional triple. -/
theorem IsDrafted.optional (hd : d.IsDrafted origin)
    (h : d.optional subject predicate object = .ok d') : d'.IsDrafted origin := by
  obtain ⟨t, ht, rfl⟩ := optional_eq_ok_iff.mp h
  have hFits : t.Fits := (checkTriple_eq_ok_iff.mp ht).2.2.2
  refine hd.add (Element.everywhere_optional.mpr ⟨trivial, ?_⟩)
  simpa [Element.IsDrafted] using hFits

/-- So does a condition. -/
theorem IsDrafted.filter (hd : d.IsDrafted origin) (h : d.filter limit expression = .ok d') :
    d'.IsDrafted origin := by
  obtain ⟨e, -, he, rfl⟩ := filter_eq_ok_iff.mp h
  exact hd.add (Element.everywhere_filter.mpr (Kind.acceptsAny_of_within he))

/-- So does a union of drafted branches, and none of none. -/
theorem IsDrafted.union {branches : List Branch} (hd : d.IsDrafted origin)
    (hB : ∀ b ∈ branches, b.Everywhere Element.IsDrafted) :
    (d.union branches).IsDrafted origin := by
  unfold Draft.union
  split
  · exact hd
  · exact hd.add (Element.everywhere_union.mpr ⟨trivial, hB⟩)

end Draft

-- ---------------------------------------------------------------------------
-- Clauses, specs and observables
-- ---------------------------------------------------------------------------

/-- Everything in a draft and in the alternatives beside it was written by drafts. -/
structure Progress.IsDrafted (origin : Option String) (p : Progress) : Prop where
  draft : p.draft.IsDrafted origin
  branches : ∀ b ∈ p.branches, b.Everywhere Element.IsDrafted

/-- A clause on a place comes to nothing, or its fragment goes to its place. -/
theorem placeClause_eq_ok {s : Settings} {spec : FilterSpec} {subject : String} {p p' : Progress}
    {c : Clause} (h : (s.placeClause spec subject p c).outcome = .ok p') :
    ∃ found, (s.translate c none spec.datatype).outcome = .ok found ∧
      (found = none ∧ p' = p ∨
      ∃ fragment function, found = some fragment ∧ termOf spec.uri = .ok function ∧
        p.place c subject function fragment = .ok p') := by
  simp only [Settings.placeClause, Traced.outcome_bind, bind_eq_ok_iff] at h
  obtain ⟨found, hFound, h⟩ := h
  refine ⟨found, hFound, ?_⟩
  cases found with
  | none =>
    cases h
    exact .inl ⟨rfl, rfl⟩
  | some fragment =>
    simp only [Traced.outcome_bind, Traced.outcome_lift, bind_eq_ok_iff, raise_eq_ok_iff] at h
    obtain ⟨function, hFunction, h⟩ := h
    exact .inr ⟨fragment, function, rfl, hFunction, h⟩

namespace Progress.IsDrafted

variable {origin : Option String} {s : Settings} {spec : FilterSpec} {c : Clause} {p p' : Progress}

/-- A step on the draft of a spec leaves it drafted if the step does. -/
theorem write {step : Draft → Except Failure Draft} (hp : p.IsDrafted origin)
    (hStep : ∀ d, p.draft.IsDrafted origin → step p.draft = .ok d → d.IsDrafted origin)
    (h : p.write step = .ok p') : p'.IsDrafted origin := by
  obtain ⟨d, hd, rfl⟩ := map_eq_ok_iff.mp h
  exact ⟨hStep d hp.draft hd, hp.branches⟩

/-- A condition leaves the draft of a spec drafted. -/
theorem filter {limit : Nat} {e : Json} (hp : p.IsDrafted origin)
    (h : p.write (·.filter limit e) = .ok p') : p'.IsDrafted origin :=
  hp.write (fun _ hd => hd.filter) h

/-- A geospatial triple leaves it drafted, whether it is written or kept for the union. -/
theorem place {subject function fragment : String} (hp : p.IsDrafted origin)
    (h : p.place c subject function fragment = .ok p') : p'.IsDrafted origin := by
  unfold Progress.place at h
  split at h
  · obtain ⟨d, hd, rfl⟩ := map_eq_ok_iff.mp h
    refine ⟨hp.draft, fun b hb => ?_⟩
    rcases List.mem_append.mp hb with hb | hb
    · exact hp.branches b hb
    · rw [List.mem_singleton.mp hb]
      exact Branch.everywhere_group.mpr ((Draft.isDrafted_start none).triple hd).elements
  · exact hp.write (fun _ hd => hd.also) h

/-- So does whatever a geospatial clause gives. -/
theorem placeClause {subject : String} (hp : p.IsDrafted origin)
    (h : (s.placeClause spec subject p c).outcome = .ok p') : p'.IsDrafted origin := by
  obtain ⟨found, -, ⟨-, rfl⟩ | ⟨fragment, function, -, -, hPlace⟩⟩ := placeClause_eq_ok h
  · exact hp
  · exact hp.place hPlace

end Progress.IsDrafted

/-- A clause that constrains comes to nothing, to a bound that is kept or to a condition. -/
theorem constrain_eq_ok {s : Settings} {spec : FilterSpec} {kind : FilterKind}
    {p p' : SpecProgress} {c : Clause} (h : (s.constrain spec kind p c).outcome = .ok p') :
    ∃ found, (s.translate c spec.var spec.datatype).outcome = .ok found ∧
      (found = none ∧ p' = p ∨
      ∃ fragment, found = some fragment ∧
        (kind = .range ∧ p' = { p with
          bounds := p.bounds ++ [⟨c.value, comparisonSymbol c.comparison, fragment⟩] } ∨
        kind ≠ .range ∧ ∃ done, p.toProgress.write (·.filter s.nesting (.str fragment)) = .ok done ∧
          p' = { p with toProgress := done })) := by
  simp only [Settings.constrain, Traced.outcome_bind, bind_eq_ok_iff] at h
  obtain ⟨found, hFound, h⟩ := h
  refine ⟨found, hFound, ?_⟩
  cases found with
  | none =>
    cases h
    exact .inl ⟨rfl, rfl⟩
  | some fragment =>
    refine .inr ⟨fragment, rfl, ?_⟩
    dsimp only at h
    -- a range waits for the other bounds of its spec, anything else is written at once
    split at h
    · rename_i hRange
      cases h
      exact .inl ⟨beq_iff_eq.mp hRange, rfl⟩
    · rename_i hOther
      obtain ⟨done, hDone, h⟩ := bind_eq_ok_iff.mp ((Traced.outcome_bind _ _).symm.trans h)
      cases h
      exact .inr ⟨fun hRange => hOther (beq_iff_eq.mpr hRange), done, hDone, rfl⟩

/-- What a clause may come to: nothing if it was not chosen, else a triple or an alternative on a
geospatial function, and the request of a function or a constraint on anything else. -/
theorem applyClause_eq_ok {s : Settings} {spec : FilterSpec} {o : Observable} {key : String}
    {p p' : SpecProgress} {c : Clause} (h : (s.applyClause spec o key p c).outcome = .ok p') :
    c.isSelected = false ∧ p' = p ∨
    c.isSelected = true ∧
      (s.isGeoFunction spec.uri = .ok true ∧
        (∃ done, (s.placeClause spec (bracketUrl o.subject) p.toProgress c).outcome = .ok done ∧
          p' = { p with toProgress := done }) ∨
      s.isGeoFunction spec.uri = .ok false ∧ ∃ kind, FilterKind.of c.name = .ok kind ∧
        ((∃ category, kind.category? = some category) ∧ p' = p ∨
        kind.category? = none ∧ (s.constrain spec kind p c).outcome = .ok p')) := by
  -- the four tests of a clause are peeled off one after the other
  unfold Settings.applyClause at h
  split at h
  · rename_i hSelected
    cases h
    exact .inl ⟨by simpa using hSelected, rfl⟩
  rename_i hSelected
  refine .inr ⟨by simpa using hSelected, ?_⟩
  simp only [Traced.outcome_bind, Traced.outcome_lift, bind_eq_ok_iff, raise_eq_ok_iff] at h
  obtain ⟨isGeo, hGeo, h⟩ := h
  split at h
  · rename_i hTrue
    simp only [Traced.outcome_bind, bind_eq_ok_iff] at h
    obtain ⟨done, hDone, h⟩ := h
    cases h
    exact .inl ⟨hTrue ▸ hGeo, done, hDone, rfl⟩
  rename_i hFalse
  refine .inr ⟨by rw [hGeo, (Bool.not_eq_true isGeo).mp hFalse], ?_⟩
  simp only [Traced.outcome_bind, Traced.outcome_lift, bind_eq_ok_iff, raise_eq_ok_iff] at h
  obtain ⟨kind, hKind, h⟩ := h
  refine ⟨kind, hKind, ?_⟩
  split at h
  · rename_i category hCategory
    simp only [Traced.outcome_bind, bind_eq_ok_iff] at h
    obtain ⟨-, -, h⟩ := h
    cases h
    exact .inl ⟨⟨category, hCategory⟩, rfl⟩
  · rename_i hNone
    exact .inr ⟨hNone, h⟩

/-- Asking for a function always succeeds: it only leaves a note. -/
theorem outcome_requestFunction {spec : FilterSpec} {o : Observable} {key : String} {c : Clause}
    (category : FunctionCategory) : (requestFunction category spec o key c).outcome = .ok () := by
  unfold requestFunction
  split
  · split <;> rfl
  · rfl

/-- Noting the variable of a spec always succeeds. -/
theorem outcome_noteSelected (spec : FilterSpec) : spec.noteSelected.outcome = .ok () := by
  unfold FilterSpec.noteSelected
  split
  · split <;> rfl
  · rfl

namespace Progress.IsDrafted

variable {origin : Option String} {s : Settings} {spec : FilterSpec} {o : Observable} {key : String}

/-- A constraint leaves the draft of a spec drafted, whether it is written or kept as a bound. -/
theorem constrain {kind : FilterKind} {c : Clause} {p p' : SpecProgress} (hp : p.IsDrafted origin)
    (h : (s.constrain spec kind p c).outcome = .ok p') : p'.IsDrafted origin := by
  obtain ⟨found, -, ⟨-, rfl⟩ | ⟨fragment, -, ⟨-, rfl⟩ | ⟨-, done, hDone, rfl⟩⟩⟩ :=
    constrain_eq_ok h
  · exact hp
  · exact ⟨hp.draft, hp.branches⟩
  · exact hp.filter hDone

/-- Every clause leaves the draft of its spec drafted. -/
theorem applyClause {c : Clause} {p p' : SpecProgress} (hp : p.IsDrafted origin)
    (h : (s.applyClause spec o key p c).outcome = .ok p') : p'.IsDrafted origin := by
  obtain ⟨-, rfl⟩ | ⟨-, ⟨-, done, hDone, rfl⟩ | ⟨-, kind, -, ⟨-, rfl⟩ | ⟨-, hConstrain⟩⟩⟩ :=
    applyClause_eq_ok h
  · exact hp
  · exact hp.placeClause hDone
  · exact hp
  · exact hp.constrain hConstrain

/-- The triple of a spec leaves its draft drafted. -/
theorem writeTriple {subject predicate : String} {d d' : Draft} (hd : d.IsDrafted origin)
    (h : spec.writeTriple subject predicate d = .ok d') : d'.IsDrafted origin := by
  unfold FilterSpec.writeTriple at h
  split at h
  · cases h
    exact hd
  · split at h
    · exact hd.optional h
    · exact hd.also h

/-- What the bounds are merged to leaves it drafted. -/
theorem writeBounds {p : SpecProgress} {p' : Progress} (hp : p.IsDrafted origin)
    (h : (p.writeBounds s.nesting).outcome = .ok p') : p'.IsDrafted origin := by
  unfold SpecProgress.writeBounds at h
  split at h
  · cases h
    exact hp
  · simp only [Traced.outcome_bind, bind_eq_ok_iff] at h
    obtain ⟨merged, -, h⟩ := h
    cases merged with
    | none =>
      cases h
      exact hp
    | some e => exact hp.filter h

/-- Every spec leaves the draft of its observable drafted. -/
theorem applySpec {p p' : Progress} (hp : p.IsDrafted origin)
    (h : (s.applySpec o key p spec).outcome = .ok p') : p'.IsDrafted origin := by
  simp only [Settings.applySpec, Traced.outcome_bind, Traced.outcome_lift, bind_eq_ok_iff] at h
  obtain ⟨predicate, -, q, hq, -, -, done, hDone, h⟩ := h
  -- the triple of the spec, then its clauses one by one, then what the ranges come to
  have hqDrafted : q.IsDrafted origin := hp.write (fun d hd hStep => writeTriple hd hStep) hq
  have hDoneDrafted : done.IsDrafted origin :=
    Traced.foldlM_keeps (I := fun p : SpecProgress => p.IsDrafted origin)
      (fun c _ p p' hp h => hp.applyClause h) ⟨hqDrafted.draft, hqDrafted.branches⟩ hDone
  exact hDoneDrafted.writeBounds h

end Progress.IsDrafted

/-- The group of an observable is the one of its key and was written by drafts, and its modifiers
are those of the observable. -/
theorem subgraph_drafted {s : Settings} {r : Request} {o : Observable} {sub : Subgraph}
    (h : (s.subgraph r o).outcome = .ok sub) :
    sub.group.origin = some (o.key r.keys) ∧ sub.group.Everywhere Element.IsDrafted ∧
      o.modifiers = .ok sub.modifiers := by
  simp only [Settings.subgraph, Traced.outcome_bind, Traced.outcome_lift, bind_eq_ok_iff] at h
  obtain ⟨-, -, draft, hDraft, done, hDone, modifiers, hModifiers, -, -, h⟩ := h
  cases h
  have hStart : draft.IsDrafted (some (o.key r.keys)) := (Draft.isDrafted_start _).triple hDraft
  have hDoneDrafted : done.IsDrafted (some (o.key r.keys)) :=
    Traced.foldlM_keeps (fun spec _ p p' hp h => Progress.IsDrafted.applySpec hp h)
      ⟨hStart, by simp⟩ hDone
  have hUnion := hDoneDrafted.draft.union hDoneDrafted.branches
  exact ⟨hUnion.origin, hUnion.elements, hModifiers⟩

-- ---------------------------------------------------------------------------
-- Aggregates
-- ---------------------------------------------------------------------------

namespace Aggregation

/-- The branch of a key holds checked triples and nothing else. -/
theorem branch_drafted {key : String} {first : FunctionCall} {calls : List FunctionCall}
    {g : Group} (h : branch key first calls = .ok g) : g.Everywhere Element.IsDrafted := by
  simp only [branch, bind_eq_ok_iff] at h
  obtain ⟨start, hStart, draft, hDraft, h⟩ := h
  cases h
  have hDrafted : draft.IsDrafted (some key) :=
    foldlM_keeps (fun b _ d d' hd h => Draft.IsDrafted.also hd h)
      ((Draft.isDrafted_start _).triple hStart) hDraft
  exact hDrafted.elements

/-- All branches that are collected are drafted. -/
theorem collect_drafted {calls : List (String × List FunctionCall)}
    {selected : List FunctionCall} {groups : List Group} {selected' : List FunctionCall}
    (h : collect calls selected = .ok (groups, selected')) :
    ∀ g ∈ groups, g.Everywhere Element.IsDrafted := by
  induction calls generalizing selected groups with
  | nil =>
    rw [collect] at h
    cases h
    simp
  | cons entry rest ih =>
    obtain ⟨key, calls⟩ := entry
    cases calls with
    -- a key without calls is passed over
    | nil =>
      rw [collect] at h
      exact ih h
    | cons first more =>
      simp only [collect, bind_eq_ok_iff] at h
      obtain ⟨group, hGroup, after, -, ⟨others, last⟩, hRest, h⟩ := h
      cases h
      exact List.forall_mem_cons.mpr ⟨branch_drafted hGroup, ih hRest⟩

/-- Drafted branches are joined to a drafted group. -/
theorem join_drafted {unite : Bool} {groups : List Group}
    (h : ∀ g ∈ groups, g.Everywhere Element.IsDrafted) :
    (join unite groups).1.Everywhere Element.IsDrafted := by
  unfold join
  split
  · exact Group.everywhere_empty
  · exact h _ (List.mem_singleton_self _)
  · -- branches with the same variables are united, others stand side by side
    split
    · simpa [Element.IsDrafted] using h
    · simpa [Element.IsDrafted] using h

end Aggregation

/-- There is a sub-query of aggregates if there is a call, and it is made of the branches and the
calls that are selected. -/
theorem aggregation_eq_ok {groups : List (String × List FunctionCall)}
    {result : Option Aggregation} (h : (aggregation groups).outcome = .ok result) :
    let asked := groups.filter fun (_, calls) => !calls.isEmpty
    (asked = [] ∧ result = none) ∨
    ∃ branches selected, Aggregation.collect asked [] = .ok (branches, selected) ∧
      result = some (Aggregation.ofBranches (Aggregation.sameVars asked) branches selected) := by
  intro asked
  unfold aggregation at h
  dsimp only at h
  split at h
  · rename_i hEmpty
    cases h
    exact .inl ⟨List.isEmpty_iff.mp hEmpty, rfl⟩
  · simp only [Traced.outcome_bind, Traced.outcome_lift, bind_eq_ok_iff] at h
    obtain ⟨⟨branches, selected⟩, hCollect, h⟩ := h
    refine .inr ⟨branches, selected, hCollect, ?_⟩
    split at h
    · cases h
      rfl
    · cases h
      rfl

/-- The pattern of the aggregates was written by drafts. -/
theorem aggregation_drafted {groups : List (String × List FunctionCall)} {a : Aggregation}
    (h : (aggregation groups).outcome = .ok (some a)) :
    a.query.body.Everywhere Element.IsDrafted := by
  obtain ⟨-, hNone⟩ | ⟨branches, selected, hCollect, hSome⟩ := aggregation_eq_ok h
  · cases hNone
  · cases hSome
    exact Aggregation.join_drafted (Aggregation.collect_drafted hCollect)

-- ---------------------------------------------------------------------------
-- The search by place
-- ---------------------------------------------------------------------------

namespace Progress.IsDrafted

variable {origin : Option String} {s : Settings} {spec : FilterSpec} {entity : String}
  {p p' : Progress}

/-- A clause of a search by place leaves the draft drafted. -/
theorem applyLocationClause {isGeo : Bool} {c : Clause} (hp : p.IsDrafted origin)
    (h : (s.applyLocationClause spec isGeo entity p c).outcome = .ok p') : p'.IsDrafted origin := by
  unfold Settings.applyLocationClause at h
  split at h
  · cases h
    exact hp
  split at h
  · exact hp.placeClause h
  simp only [Traced.outcome_bind, bind_eq_ok_iff] at h
  obtain ⟨fragment, -, h⟩ := h
  cases fragment with
  | none =>
    cases h
    exact hp
  | some fragment => exact hp.filter h

/-- So does a spec of a search by place. -/
theorem applyLocationSpec (hp : p.IsDrafted origin)
    (h : (s.applyLocationSpec entity p spec).outcome = .ok p') : p'.IsDrafted origin := by
  simp only [Settings.applyLocationSpec, Traced.outcome_bind, Traced.outcome_lift,
    bind_eq_ok_iff] at h
  obtain ⟨isGeo, -, h⟩ := h
  exact Traced.foldlM_keeps (fun c _ p p' hp h => applyLocationClause hp h) hp h

end Progress.IsDrafted

/-- A search by place starts from a draft. -/
theorem sensorDraft_drafted {s : Settings} {pattern : SensorPattern} {d : Draft}
    (h : s.sensorDraft pattern = .ok d) : d.IsDrafted none := by
  simp only [Settings.sensorDraft, bind_eq_ok_iff] at h
  obtain ⟨d₁, h₁, d₂, h₂, d₃, h₃, d₄, h₄, h⟩ := h
  exact (((((Draft.isDrafted_start none).triple h₁).triple h₂).optional h₃).triple h₄).triple h

/-- The pattern of a search by place was written by drafts. -/
theorem locationQuery_drafted {s : Settings} {r : Request} {q : SelectQuery}
    (h : (s.locationQuery r).outcome = .ok q) : q.body.Everywhere Element.IsDrafted := by
  simp only [Settings.locationQuery, Traced.outcome_bind, Traced.outcome_lift,
    bind_eq_ok_iff] at h
  obtain ⟨pattern, -, draft, hDraft, done, hDone, sample, -, terms, -, -, -, h⟩ := h
  cases h
  have hDoneDrafted : done.IsDrafted none :=
    Traced.foldlM_keeps (fun _ _ p p' hp h => Progress.IsDrafted.applyLocationSpec hp h)
      ⟨sensorDraft_drafted hDraft, by simp⟩ hDone
  exact (hDoneDrafted.draft.union hDoneDrafted.branches).elements

end SparqlSelect
