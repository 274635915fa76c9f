import SparqlSelect.Proofs.Compile.AggregateGroups
import SparqlSelect.Proofs.Compile.AggregateItems

/-!
# What an aggregate is computed over

The query of the aggregates has one branch for each key, and a branch has one anchor: the triple of
the first call of its key. Observables of one key have the same specs, so each of them asks for what
the others ask for, and the first call of a key comes from the first observable of the request that
has this key. The calls of the others ask for the same variables on the same IRIs, and these are
bound at the subject of that first observable already. So the branch of a key is the one that the
first observable would have by itself.

* `Settings.requestedBy_of_key` — what observables of one key ask for.
* `first_of_requested` — the first call of a key comes from the first observable with that key.
* `bindings_of_key` — the calls of a key bind what those of the first observable bind.
* `Aggregation.Computes.branches_of_key` — there is one branch for a key.
* `build_aggregates_over_first` — what every aggregate of every payload is computed over.
-/

namespace SparqlSelect

-- ---------------------------------------------------------------------------
-- The calls of a key
-- ---------------------------------------------------------------------------

/-- The triple of an observable, as it is written. -/
def Observable.anchor (o : Observable) : Triple :=
  ⟨bracketUrl o.subject, bracketUrl o.predicate, bracketUrl o.object⟩

/-- A call as it would be asked for from an observable. -/
def Observable.claim (o : Observable) (c : FunctionCall) : FunctionCall :=
  { c with subject := o.subject, predicate := o.predicate, object := o.object }

/-- The calls of a category that an observable of a request asks for. -/
def Settings.requestedBy (s : Settings) (category : FunctionCategory) (r : Request)
    (o : Observable) : List FunctionCall :=
  ((r.specsOf (o.key r.keys)).flatMap (s.callsOf o (o.key r.keys))).filter
    (·.category = category)

/-- The triples for the aggregates that an observable asks for: its own triple, and at its subject
one triple for each pair of an IRI and a variable that it asks for. -/
def Settings.branchTriples (s : Settings) (r : Request) (o : Observable) : List Triple :=
  o.anchor :: (Aggregation.bindings (s.requestedBy .aggregate r o)).map fun (uri, var) =>
    ⟨bracketUrl o.subject, bracketUrl uri, var⟩

section

variable {s : Settings} {r : Request} {category : FunctionCategory} {o o' first : Observable}
  {c : FunctionCall} {key : String}

/-- Observables of one key ask for the same, each from its own place. -/
theorem Settings.requestedBy_of_key (hKey : o'.key r.keys = o.key r.keys) :
    s.requestedBy category r o' = (s.requestedBy category r o).map o'.claim := by
  -- only subject and object of the calls are the observable's own
  have hCalls (spec : FilterSpec) : s.callsOf o' (o.key r.keys) spec =
      (s.callsOf o (o.key r.keys) spec).map o'.claim := by
    rw [Settings.callsOf, Settings.callsOf, List.map_filterMap]
    refine List.filterMap_congr fun c _ => ?_
    unfold Settings.call?
    split
    · rfl
    · simp only [Option.map_bind, Option.map_map, Function.comp_def]
      rfl
  have hAll : (r.specsOf (o.key r.keys)).flatMap (s.callsOf o' (o.key r.keys)) =
      ((r.specsOf (o.key r.keys)).flatMap (s.callsOf o (o.key r.keys))).map o'.claim := by
    rw [List.map_flatMap, List.flatMap_congr fun spec _ => hCalls spec]
  rw [Settings.requestedBy, Settings.requestedBy, hKey, hAll, List.filter_map]
  rfl

/-- What an observable asks for carries its triple and its key. -/
theorem Settings.of_mem_requestedBy (h : c ∈ s.requestedBy category r o) :
    c.subject = o.subject ∧ c.predicate = o.predicate ∧ c.object = o.object ∧
      c.key = o.key r.keys := by
  obtain ⟨spec, -, hc⟩ := List.mem_flatMap.mp (List.mem_filter.mp h).1
  obtain ⟨clause, -, hc⟩ := List.mem_filterMap.mp hc
  unfold Settings.call? at hc
  split at hc
  · cases hc
  · obtain ⟨var, -, hc⟩ := Option.bind_eq_some_iff.mp hc
    obtain ⟨_, -, rfl⟩ := Option.map_eq_some_iff.mp hc
    exact ⟨rfl, rfl, rfl, rfl⟩

/-- Of what an observable asks for, all is of its key. -/
theorem Settings.filter_requestedBy (key : String) :
    (s.requestedBy category r o).filter (·.key == key) =
      if o.key r.keys = key then s.requestedBy category r o else [] := by
  split
  · rename_i hKey
    refine List.filter_eq_self.mpr fun c hc => ?_
    rw [(Settings.of_mem_requestedBy hc).2.2.2, hKey]
    exact beq_self_eq_true key
  · rename_i hOther
    refine List.filter_eq_nil_iff.mpr fun c hc => ?_
    rwa [(Settings.of_mem_requestedBy hc).2.2.2, beq_iff_eq]

/-- The calls of a key start with those of the first observable that has it. Those behind them ask
for nothing that the first ones do not ask for. -/
theorem requested_of_key (s : Settings) (category : FunctionCategory)
    (hFirst : r.observables.find? (·.key r.keys == key) = some first) :
    ∃ others, (s.requested category r).filter (·.key == key) =
        s.requestedBy category r first ++ others ∧
      ∀ c ∈ others, ∃ d ∈ s.requestedBy category r first, d.uri = c.uri ∧ d.var = c.var := by
  obtain ⟨hKey, before, after, hAll, hBefore⟩ := List.find?_eq_some_iff_append.mp hFirst
  replace hKey : first.key r.keys = key := by simpa using hKey
  have hNone (o : Observable) (ho : o ∈ before) : o.key r.keys ≠ key := by
    simpa using hBefore o ho
  have hFiltered (o : Observable) :
      (((r.specsOf (o.key r.keys)).flatMap (s.callsOf o (o.key r.keys))).filter
        (·.category = category)).filter (·.key == key) =
      if o.key r.keys = key then s.requestedBy category r o else [] :=
    Settings.filter_requestedBy key
  refine ⟨after.flatMap fun o => if o.key r.keys = key then s.requestedBy category r o else [],
    ?_, fun c hc => ?_⟩
  · -- the observables before the first one of the key ask for nothing of the key
    have hNothing : (before.flatMap fun o =>
        if o.key r.keys = key then s.requestedBy category r o else []) = [] :=
      List.flatMap_eq_nil_iff.mpr fun o ho => if_neg (hNone o ho)
    rw [Settings.requested, List.filter_flatMap, funext hFiltered, hAll, List.flatMap_append,
      List.flatMap_cons, hNothing, if_pos hKey, List.nil_append]
  · -- a later one asks for the same calls but for its own subject and object
    obtain ⟨o, -, hc⟩ := List.mem_flatMap.mp hc
    split at hc
    · rename_i hSame
      rw [Settings.requestedBy_of_key (hSame.trans hKey.symm)] at hc
      obtain ⟨d, hd, rfl⟩ := List.mem_map.mp hc
      exact ⟨d, hd, rfl, rfl⟩
    · cases hc

/-- The calls of a key bind what those of the first observable bind. -/
theorem bindings_of_key (hFirst : r.observables.find? (·.key r.keys == key) = some first) :
    Aggregation.bindings ((s.requested category r).filter (·.key == key)) =
      Aggregation.bindings (s.requestedBy category r first) := by
  obtain ⟨others, hCalls, hOthers⟩ := requested_of_key s category hFirst
  have hNothing : (others.map fun c => (c.uri, c.var)).removeAll
      ((s.requestedBy category r first).map fun c => (c.uri, c.var)) = [] := by
    refine List.filter_eq_nil_iff.mpr fun pair hPair => ?_
    obtain ⟨c, hc, rfl⟩ := List.mem_map.mp hPair
    obtain ⟨d, hd, hUri, hVar⟩ := hOthers c hc
    simpa using ⟨d, hd, hUri, hVar⟩
  rw [Aggregation.bindings, hCalls, List.map_append, List.eraseDups_append, hNothing,
    List.eraseDups_nil, List.append_nil]
  rfl

/-- If there is a call, the first observable of its key asks for one. -/
theorem first_of_requested (hc : c ∈ s.requested category r) :
    ∃ first call more, r.observables.find? (·.key r.keys == c.key) = some first ∧
      (s.requested category r).filter (·.key == c.key) = call :: more ∧
      call ∈ s.requestedBy category r first := by
  obtain ⟨o, ho, hcOf⟩ := List.mem_flatMap.mp hc
  have hKey : o.key r.keys = c.key := (Settings.of_mem_requestedBy hcOf).2.2.2.symm
  obtain ⟨first, hFirst⟩ : ∃ first, r.observables.find? (·.key r.keys == c.key) = some first :=
    Option.isSome_iff_exists.mp (List.find?_isSome.mpr ⟨o, ho, by simp [hKey]⟩)
  have hFirstKey : first.key r.keys = c.key := by simpa using List.find?_some hFirst
  obtain ⟨others, hCalls, -⟩ := requested_of_key s category hFirst
  -- an observable of the same key asks for something, so the first one does
  have hSome : s.requestedBy category r o =
      (s.requestedBy category r first).map o.claim :=
    Settings.requestedBy_of_key (hKey.trans hFirstKey.symm)
  have hMem : c ∈ s.requestedBy category r o := hcOf
  rw [hSome] at hMem
  obtain ⟨d, hd, -⟩ := List.mem_map.mp hMem
  cases hOwn : s.requestedBy category r first with
  | nil =>
    rw [hOwn] at hd
    cases hd
  | cons call more =>
    refine ⟨first, call, more ++ others, hFirst, by rw [hCalls, hOwn, List.cons_append], ?_⟩
    rw [hOwn]
    exact List.mem_cons_self

/-- The triples of the calls of a key are those for the first observable that has it. -/
theorem branchTriples_of_key {call : FunctionCall}
    (hFirst : r.observables.find? (·.key r.keys == key) = some first)
    (hCall : call ∈ s.requestedBy .aggregate r first) :
    Aggregation.branchTriples call ((s.requested .aggregate r).filter (·.key == key)) =
      s.branchTriples r first := by
  obtain ⟨hSubject, hPredicate, hObject, -⟩ := Settings.of_mem_requestedBy hCall
  rw [Aggregation.branchTriples, Settings.branchTriples, bindings_of_key hFirst, hSubject,
    FunctionCall.anchor, Observable.anchor, hSubject, hPredicate, hObject]

end

-- ---------------------------------------------------------------------------
-- The branch of a key
-- ---------------------------------------------------------------------------

namespace Aggregation

section

variable {calls selected : List FunctionCall} {groups : List Group} {a : Aggregation}
  {c : FunctionCall}

/-- A branch is made of triples, so there is no other group in it. -/
theorem all_branchOf (entry : String × List FunctionCall) :
    (branchOf entry).all = [branchOf entry] := by
  have hTriples (triples : List Triple) :
      (triples.map Element.triple).flatMap Element.groups = [] := by
    rw [List.flatMap_map]
    exact List.flatMap_eq_nil_iff.mpr fun t _ => rfl
  obtain ⟨key, calls⟩ := entry
  cases calls with
  | nil => rfl
  | cons first more => rw [Group.all_eq, branchOf, hTriples]

/-- The groups of the pattern that have an origin are the branches: where there are several, the
group around them has none. -/
theorem filter_all_join (hAlone : ∀ g ∈ groups, g.all = [g]) (unite : Bool) (key : String) :
    (join unite groups).1.all.filter (·.origin == some key) =
      groups.filter (·.origin == some key) := by
  have hBranches : groups.flatMap Group.all = groups := by
    rw [List.flatMap_congr hAlone]
    exact List.flatMap_singleton' groups
  -- the three shapes of a pattern: no group, a single one, several of them
  unfold join
  split
  · rfl
  · rw [hAlone _ (List.mem_singleton_self _)]
  · have hUnited : [Element.union (groups.map Branch.group)].flatMap Element.groups = groups := by
      rw [List.flatMap_singleton, Element.groups, Branch.groupsOfAll_eq_flatMap, List.flatMap_map]
      exact hBranches
    have hNested : (groups.map fun g => Element.nested (.group g)).flatMap Element.groups =
        groups := by
      rw [List.flatMap_map]
      exact hBranches
    cases unite with
    | true =>
      rw [if_pos rfl, Group.all_eq, List.filter_cons_of_neg (by simp)]
      exact congrArg _ hUnited
    | false =>
      rw [if_neg Bool.false_ne_true, Group.all_eq, List.filter_cons_of_neg (by simp)]
      exact congrArg _ hNested

/-- There is one branch for the key of a call, and it has the triples of the calls of the key. -/
theorem Computes.branches_of_key (h : Computes calls groups selected a) (hc : c ∈ calls) :
    a.query.body.all.filter (·.origin == some c.key) =
      [branchOf (c.key, calls.filter (·.key == c.key))] := by
  have hBranches := eq_map_branchOf h.branches
  have hAlone : ∀ g ∈ groups, g.all = [g] := by
    rw [hBranches]
    intro g hg
    obtain ⟨entry, -, rfl⟩ := List.mem_map.mp hg
    exact all_branchOf entry
  have hBody : a.query.body = (join (sameVars (FunctionCall.grouped calls)) groups).1 := by
    rw [h.shape]
    rfl
  -- a branch has the key of its entry, and each key has one entry
  have hOrigin (key : String) (calls : List FunctionCall) :
      (branchOf (key, calls)).origin = some key := by cases calls <;> rfl
  have hOnce : (calls.map (·.key)).eraseDups.filter (· == c.key) = [c.key] := by
    rw [List.filter_beq, count_eraseDups_of_mem (List.mem_map_of_mem hc)]
    rfl
  rw [hBody, filter_all_join hAlone, hBranches, FunctionCall.grouped, List.map_map,
    List.filter_map]
  simp only [Function.comp_def, hOrigin, Option.some_beq_some]
  rw [hOnce, List.map_singleton]

end

end Aggregation

/-- One group of an origin is one without bindings too, so it does not matter what was bound in it
since. -/
theorem Group.of_filter_withoutBindings {around g : Group} {key : String}
    (h : around.withoutBindings.all.filter (·.origin == some key) = [g]) :
    ∃ own, around.all.filter (·.origin == some key) = [own] ∧ own.withoutBindings = g := by
  rw [Group.all_withoutBindings, List.filter_map] at h
  simp only [Function.comp_def, Group.origin_withoutBindings] at h
  exact List.map_eq_singleton_iff.mp h

/-- **What an aggregate is computed over.** When a payload has a query and a clause of a spec of an
observable asks for an aggregate of a variable, there is a first observable in the request with the
same key. The query that selects the aggregate has one branch for this key. The triples of the
branch are those for the first observable by itself, whatever further observables have the key: the
triple of that observable, and at its subject the triples that bind what it asks for, among them the
one that binds the variable of the clause. -/
theorem build_aggregates_over_first {s : Settings} {r : Request} {payload : Json} {q : SelectQuery}
    {o : Observable} {spec : FilterSpec} {var : Json} {c : Clause}
    (hRead : Request.read payload = .ok r) (hAsks : s.Asks r .aggregate o spec var c)
    (h : (s.build payload).outcome = .ok q) :
    ∃ first sub g, r.observables.find? (·.key r.keys == o.key r.keys) = some first ∧
      .nested (.select sub) ∈ q.body.elements ∧
      (o.call (o.key r.keys) .aggregate spec var c).selectItem ∈ sub.projection ∧
      sub.body.all.filter (·.origin == some (o.key r.keys)) = [g] ∧
      g.triples = s.branchTriples r first ∧ first.anchor ∈ g.triples ∧
      ⟨bracketUrl first.subject, bracketUrl spec.uri.display, var.display⟩ ∈ g.triples := by
  obtain ⟨subgraphs, aggregates, before, steps, done, hStages, rfl⟩ :=
    build_stages hRead (List.ne_nil_of_mem hAsks.listed) h
  have hRequested := hAsks.mem_requested
  obtain ⟨hNone, -⟩ | ⟨a, groups, selected, rfl, hComputes⟩ :=
    Aggregation.aggregation_computes hStages.aggregation
  · rw [hNone] at hRequested
    cases hRequested
  obtain ⟨sub, hSub, hSame⟩ := hStages.nested_of_aggregates
  obtain ⟨first, call, more, hFirst, hCalls, hCall⟩ := first_of_requested hRequested
  have hTriples := branchTriples_of_key hFirst hCall
  -- bindings may have come into the branch since, but no triple has left it
  have hBranch := hComputes.branches_of_key hRequested
  rw [← hSame, SelectQuery.withoutBindings_eq] at hBranch
  obtain ⟨g, hOne, hLeft⟩ := Group.of_filter_withoutBindings hBranch
  have hOwn : g.triples = s.branchTriples r first := by
    rw [← Group.triples_withoutBindings, hLeft, ← hTriples, hCalls]
    simp [Aggregation.branchOf, Group.triples, List.filterMap_map]
  refine ⟨first, sub, g, hFirst, hSub, ?_, hOne, hOwn, ?_, ?_⟩
  · have hItems : sub.projection = a.query.projection := by
      rw [← hSame, SelectQuery.withoutBindings_eq]
    rw [hItems, hComputes.projection, List.mem_eraseDups]
    exact List.mem_map_of_mem (FunctionCall.mem_flatMap_grouped.mpr hRequested)
  · rw [hOwn]
    exact List.mem_cons_self
  · have hKey := List.mem_filter (p := (·.key == o.key r.keys)).mpr
      ⟨hRequested, beq_self_eq_true (o.key r.keys)⟩
    have hBound := Aggregation.mem_branchTriples call hKey
    rw [(Settings.of_mem_requestedBy hCall).1] at hBound
    rw [hOwn, ← hTriples]
    exact hBound

/-- The average in the payload is computed over the values of the station, in the only branch of its
key. -/
theorem build_aggregates_over_first_station :
    ∃ r o spec v c q, Request.read stationPayload = .ok r ∧
      Settings.standard.Asks r .aggregate o spec (.str v) c ∧
      (Settings.standard.build stationPayload).outcome = .ok q ∧
      ∃ first sub g, r.observables.find? (·.key r.keys == o.key r.keys) = some first ∧
        .nested (.select sub) ∈ q.body.elements ∧
        sub.body.all.filter (·.origin == some (o.key r.keys)) = [g] ∧
        g.triples = Settings.standard.branchTriples r first := by
  obtain ⟨q, hq⟩ := exists_of_isOk stationPayload_builds
  obtain ⟨r, o, spec, v, c, hRead, hAsks, -⟩ := stationPayload_asks .aggregate
  obtain ⟨first, sub, g, hFirst, hSub, -, hOne, hTriples, -⟩ :=
    build_aggregates_over_first hRead hAsks hq
  exact ⟨r, o, spec, v, c, q, hRead, hAsks, hq, first, sub, g, hFirst, hSub, hOne, hTriples⟩

/-- A request for the average depth of what two stations observe, with one predicate as the key of
both observables. -/
def twoStationsPayload : Json := .obj [
  ("observables", .arr [
    .obj [("subject", .str "?a"), ("predicate", .str "x:observes"), ("object", .str "?x")],
    .obj [("subject", .str "?b"), ("predicate", .str "x:observes"), ("object", .str "?y")]]),
  ("filters", .obj [("x:observes", .arr [
    .obj [("uri", .str "x:depth"), ("predicateName", .str "?d"),
      ("filters", .arr [clauseOf "function" [("value", .str "avg")]])]])])]

/-- The clause asks for the average for both stations, and in no group of the query that computes it
is the triple of the second one. -/
theorem second_station_left_out :
    ∃ r o spec var c q, Request.read twoStationsPayload = .ok r ∧
      Settings.standard.Asks r .aggregate o spec var c ∧
      (Settings.standard.build twoStationsPayload).outcome = .ok q ∧
      ∀ sub, .nested (.select sub) ∈ q.body.elements →
        (o.call (o.key r.keys) .aggregate spec var c).selectItem ∈ sub.projection →
        ∀ g ∈ sub.body.all, o.anchor ∉ g.triples := by
  -- the whole statement is a test on the payload, which is evaluated once
  have hCheck : (Request.read twoStationsPayload).toOption.any (fun r =>
      (Settings.standard.build twoStationsPayload).outcome.toOption.any fun q =>
        r.observables.any fun o => (r.specsOf (o.key r.keys)).any fun spec =>
          (Settings.standard.isGeoFunction spec.uri).toOption == some false &&
          spec.var.any fun var => spec.clauses.any fun c =>
            c.category? == some .aggregate &&
            q.body.elements.all fun
              | .nested (.select sub) =>
                !sub.projection.contains
                  (o.call (o.key r.keys) .aggregate spec var c).selectItem ||
                sub.body.all.all fun g => !g.triples.contains o.anchor
              | _ => true) = true := by decide +kernel
  simp only [Option.any_eq_true, List.any_eq_true, Bool.and_eq_true, beq_iff_eq,
    toOption_eq_some_iff] at hCheck
  obtain ⟨r, hRead, q, hq, o, ho, spec, hSpec, hPlain, var, hVar, c, hc, hAsks, hAll⟩ := hCheck
  refine ⟨r, o, spec, var, c, q, hRead, {
    listed := ho
    attached := hSpec
    plain := hPlain
    bound := hVar
    among := hc
    asks := Clause.category?_eq_some_iff.mp hAsks }, hq, fun sub hSub hItem g hg hAnchor => ?_⟩
  have hSubAll := List.all_eq_true.mp hAll _ hSub
  dsimp only at hSubAll
  rw [List.contains_iff_mem.mpr hItem, Bool.not_true, Bool.false_or] at hSubAll
  simpa [hAnchor] using List.all_eq_true.mp hSubAll g hg

end SparqlSelect
