import SparqlSelect.Proofs.Compile.Equivalent
import SparqlSelect.Proofs.Compile.RepeatedCalls
import SparqlSelect.Proofs.Request.Reordered

/-!
# Function clauses that are repeated

A clause that asks for a function writes nothing into its spec, so a copy of it is seen only in what
is asked for. All observables with the key of the spec ask for the function again, each of them
after calls of the same clause list, and these are calls of one key on one variable. That changes
neither the sub-query of the aggregates nor what is injected.

* `Clause.IsFunction` — the clauses this is about.
* `Clause.CopiedIn` — lists of clauses of which the second has a copy more.
* `FilterSpec.repeats_of_copied` — a spec with a copy of a clause.
* `buildRequest_repeated` — the query of a request.
* `compile_repeated` — the text of a payload.
-/

namespace SparqlSelect

open Json FunctionCall

/-- A clause is of a kind that asks for an aggregate or for a temporal function. -/
def Clause.IsFunction (c : Clause) : Prop :=
  ∃ kind, FilterKind.of c.name = .ok kind ∧ kind.category?.isSome = true

/-- The second list has a copy of a clause more, somewhere after the clause. -/
def Clause.CopiedIn (c : Clause) (clauses clauses' : List Clause) : Prop :=
  ∃ before between after, clauses = before ++ c :: (between ++ after) ∧
    clauses' = before ++ c :: (between ++ c :: after)

/-- Specs that write and select the same, of which the second asks for functions again. -/
structure FilterSpec.Repeats (s : Settings) (spec spec' : FilterSpec) : Prop where
  written : spec.WritesAlike s spec'
  selected : spec.selected? = spec'.selected?
  called : ∀ o key, Repeated (s.callsOf o key spec) (s.callsOf o key spec')

section

variable {s : Settings} {spec spec' : FilterSpec} {o : Observable} {key : String} {c : Clause}
  {r r' : Request}

-- ---------------------------------------------------------------------------
-- Specs
-- ---------------------------------------------------------------------------

/-- A spec repeats itself. -/
theorem FilterSpec.Repeats.refl (s : Settings) (spec : FilterSpec) : spec.Repeats s spec :=
  ⟨fun _ _ _ => .refl (fun _ => rfl) _, rfl, fun _ _ => .refl⟩

/-- A clause that asks for a function gives no condition. -/
theorem Clause.IsFunction.givesNothing (h : c.IsFunction) : c.GivesNothing s := by
  obtain ⟨kind, hKind, hFunction⟩ := h
  exact fun _ _ _ => translate_function hKind hFunction

/-- What the clauses of a spec ask for is asked for under one key and on one variable. -/
theorem Settings.call?_eq_some {call : FunctionCall} {var : Json} (hVar : spec.var = some var)
    (h : s.call? o key spec c = some call) :
    call.key = key ∧ call.uri = spec.uri.display ∧ call.var = var.display := by
  unfold Settings.call? at h
  split at h
  · cases h
  · rw [hVar, Option.bind_some] at h
    obtain ⟨category, -, rfl⟩ := Option.map_eq_some_iff.mp h
    exact ⟨rfl, rfl, rfl⟩

/-- A copy of a clause asks for what the clause asks for, after calls of the same key on the same
variable. -/
theorem callsOf_repeated {clauses clauses' : List Clause} (h : c.CopiedIn clauses clauses') :
    Repeated (clauses.filterMap (s.call? o key spec))
      (clauses'.filterMap (s.call? o key spec)) := by
  obtain ⟨before, between, after, rfl, rfl⟩ := h
  cases hCall : s.call? o key spec c with
  | none => simp [hCall, Relation.ReflTransGen.refl]
  | some call =>
    -- a clause that gives a call has a variable, and so have the clauses between
    obtain ⟨var, hVar⟩ : ∃ var, spec.var = some var := by
      cases hVar : spec.var with
      | none => simp [Settings.call?, hVar] at hCall
      | some var => exact ⟨var, rfl⟩
    obtain ⟨hKey, hUri, hName⟩ := Settings.call?_eq_some hVar hCall
    have hBetween : ∀ d ∈ between.filterMap (s.call? o key spec),
        d.key = call.key ∧ d.uri = call.uri ∧ d.var = call.var := by
      intro d hd
      obtain ⟨clause, -, hMade⟩ := List.mem_filterMap.mp hd
      rw [hKey, hUri, hName]
      exact Settings.call?_eq_some hVar hMade
    have hMore : FunctionCall.Repeats
        (before.filterMap (s.call? o key spec) ++ call ::
          (between.filterMap (s.call? o key spec) ++ after.filterMap (s.call? o key spec)))
        (before.filterMap (s.call? o key spec) ++ call ::
          (between.filterMap (s.call? o key spec) ++ call ::
            after.filterMap (s.call? o key spec))) := .again hBetween
    simpa [hCall] using Relation.ReflTransGen.single hMore

/-- A spec with a copy of a function clause writes and selects the same, and asks for the function
again. -/
theorem FilterSpec.repeats_of_copied {clauses : List Clause} (h : c.IsFunction)
    (hCopied : c.CopiedIn spec.clauses clauses) : spec.Repeats s { spec with clauses } where
  written := by
    obtain ⟨before, between, after, hClauses, rfl⟩ := hCopied
    have hMore : spec.WritesAlike s { spec with clauses := before ++ c :: between ++ c :: after } :=
      FilterSpec.writesAlike_insert h.givesNothing (by simpa using hClauses)
    simpa using hMore
  selected := rfl
  called o key := by
    have hCall : s.call? o key { spec with clauses } = s.call? o key spec := rfl
    rw [Settings.callsOf, Settings.callsOf, hCall]
    exact callsOf_repeated hCopied

/-- A search by place passes over functions, so a copy of one makes no difference to it. -/
theorem FilterSpec.agreesInSearch_of_copied {clauses : List Clause} (h : c.IsFunction)
    (hCopied : c.CopiedIn spec.clauses clauses) : spec.AgreesInSearch s { spec with clauses } := by
  obtain ⟨before, between, after, hClauses, rfl⟩ := hCopied
  have hMore :
      spec.AgreesInSearch s { spec with clauses := before ++ c :: between ++ c :: after } :=
    FilterSpec.agreesInSearch_insert h.givesNothing (by simpa using hClauses)
  simpa using hMore

-- ---------------------------------------------------------------------------
-- Requests
-- ---------------------------------------------------------------------------

/-- The functions of a category are asked for again, observable by observable. -/
theorem requested_repeated (h : r.Related (FilterSpec.Repeats s) r')
    (category : FunctionCategory) :
    Repeated (s.requested category r) (s.requested category r') := by
  have hKeys : r'.keys = r.keys := by rw [h.same]
  have hObservables : r'.observables = r.observables := by rw [h.same]
  rw [Settings.requested, Settings.requested, hObservables, hKeys]
  refine Repeated.flatMap (R := Eq) (List.forall₂_same.mpr fun _ _ => rfl) ?_
  rintro o _ rfl
  exact (Repeated.flatMap (h.specsOf _) fun _ _ hSpec => hSpec.called o _).filter _

/-- The same query comes of a request that asks for functions again. -/
theorem buildRequest_repeated (h : r.Related (FilterSpec.Repeats s) r')
    (hSearch : r.observables ≠ [] ∨ r.Related (FilterSpec.AgreesInSearch s) r') :
    Alike Eq (s.buildRequest r).outcome (s.buildRequest r').outcome := by
  have hModifiers : r.modifiers = r'.modifiers := by rw [h.same]; rfl
  refine buildRequest_of_queries (h.mono fun _ _ hSpec => hSpec.written) ?_ hSearch
  intro subgraphs hOk hOk'
  refine observableQuery_repeated hModifiers ?_ fun category => ?_
  · rw [selectedVars_eq hOk, selectedVars_eq hOk',
      selection_congr (h.mono fun _ _ hSpec => hSpec.selected)]
  · rw [calls_eq category hOk, calls_eq category hOk']
    exact requested_repeated h category

end

-- ---------------------------------------------------------------------------
-- Payloads
-- ---------------------------------------------------------------------------

section

variable {s : Settings} {hole : SpecHole} {members members' : List (String × Json)}
  {before between after : List Json} {item : Json} {c : Clause}

/-- A copy of an item that stands for a clause is read to a copy of the clause. -/
theorem readClauses_copied (hItem : Clause.read? item = some c) (path : String) :
    Alike c.CopiedIn (readItems Clause.read path (before ++ item :: (between ++ after)))
      (readItems Clause.read path (before ++ item :: (between ++ item :: after))) := by
  refine readClauses_alike ?_ ⟨before.filterMap Clause.read?, between.filterMap Clause.read?,
    after.filterMap Clause.read?, by simp [hItem], by simp [hItem]⟩
  simp only [List.forall_mem_append, List.forall_mem_cons]
  tauto

/-- **Function clauses that are repeated.** Take any spec of any payload and a clause of it that
asks for an aggregate or for a temporal function, and insert a copy of the clause anywhere after it
in the same list. Then the new payload has a query exactly if the old one has, and the text is the
same. The clauses may stand in a list or in an object. -/
theorem compile_repeated
    (hOther : ∀ name, name ≠ "filters" → member name members' = member name members)
    (hItems : clauseItems (member "filters" members) = .ok (before ++ item :: (between ++ after)))
    (hItems' : clauseItems (member "filters" members') =
      .ok (before ++ item :: (between ++ item :: after)))
    (hItem : Clause.read? item = some c) (hFunction : c.IsFunction) (text : String) :
    s.compile (hole.requestWith (.obj members)) = .ok text ↔
      s.compile (hole.requestWith (.obj members')) = .ok text := by
  -- a copied clause that asks for a function changes neither the build nor a search
  have hSpecs (path : String) :
      Alike (fun spec spec' => spec.Repeats s spec' ∧ spec.AgreesInSearch s spec')
        (FilterSpec.read hole.specs.uri (.obj members) path)
        (FilterSpec.read hole.specs.uri (.obj members') path) := by
    refine (readSpec_clauses hOther hItems hItems' (readClauses_copied hItem) _ path).mono ?_
    rintro spec spec' ⟨hCopied, -, hSame⟩
    rw [hSame]
    exact ⟨FilterSpec.repeats_of_copied hFunction hCopied,
      FilterSpec.agreesInSearch_of_copied hFunction hCopied⟩
  have hRequests := hole.readRequest_alike (fun spec => ⟨.refl s spec, .refl s spec⟩) hSpecs
  refine compile_congr hRequests (fun r r' hRelated => ?_) text
  exact buildRequest_repeated (hRelated.mono fun _ _ hSpec => hSpec.1)
    (.inr (hRelated.mono fun _ _ hSpec => hSpec.2))

/-- A request with two observables of one key, without the spec of the key. -/
def buoyHole : SpecHole where
  request := ⟨[("observables", .arr [
    .obj [("subject", .str "?a"), ("predicate", .str "x:observes"), ("object", .str "?x")],
    .obj [("subject", .str "?b"), ("predicate", .str "x:observes"), ("object", .str "?y")]])],
    [], by simp⟩
  key := "x:observes"
  entries := ⟨[], [], by simp⟩
  specs := .item [] []

/-- The members of a spec with some clauses. -/
def buoySpec (clauses : List Json) : List (String × Json) :=
  [("uri", .str "x:time"), ("predicateName", .str "?t"), ("filters", .arr clauses)]

/-- Specs of the example that differ in their clauses agree in everything else. -/
theorem member_buoySpec (clauses clauses' : List Json) (name : String) (h : name ≠ "filters") :
    member name (buoySpec clauses') = member name (buoySpec clauses) := by
  have hNot : (name == "filters") = false := beq_eq_false_iff_ne.mpr h
  simp [buoySpec, member, List.lookup_cons, hNot]

/-- The first time that a buoy was read, and the year of each time. -/
def firstItem : Json := clauseOf "function" [("value", .str "min")]

def yearItem : Json := clauseOf "date function" [("value", .str "year")]

/-- Both functions may be asked for again, at the end and between the first two clauses. -/
theorem compile_repeated_buoy :
    ∃ text,
      Settings.standard.compile (buoyHole.requestWith
        (.obj (buoySpec [firstItem, yearItem]))) = .ok text ∧
      Settings.standard.compile (buoyHole.requestWith
        (.obj (buoySpec [firstItem, yearItem, firstItem]))) = .ok text ∧
      Settings.standard.compile (buoyHole.requestWith
        (.obj (buoySpec [firstItem, yearItem, yearItem, firstItem]))) = .ok text := by
  obtain ⟨text, hText⟩ := exists_of_isOk
    (show (Settings.standard.compile (buoyHole.requestWith
      (.obj (buoySpec [firstItem, yearItem])))).isOk = true by decide +kernel)
  obtain ⟨first, hFirst, hFirstName⟩ : ∃ c, Clause.read? firstItem = some c ∧
      c.name = .str "function" := ⟨_, rfl, rfl⟩
  obtain ⟨year, hYear, hYearName⟩ : ∃ c, Clause.read? yearItem = some c ∧
      c.name = .str "date function" := ⟨_, rfl, rfl⟩
  have hAggregate : first.IsFunction :=
    ⟨.aggregateFunction, by rw [hFirstName]; decide +kernel, rfl⟩
  have hTemporal : year.IsFunction :=
    ⟨.temporalFunction, by rw [hYearName]; decide +kernel, rfl⟩
  have hItems : clauseItems (member "filters" (buoySpec [firstItem, yearItem])) =
      .ok ([] ++ firstItem :: ([yearItem] ++ [])) := rfl
  have hItems' : clauseItems (member "filters" (buoySpec [firstItem, yearItem, firstItem])) =
      .ok ([] ++ firstItem :: ([yearItem] ++ firstItem :: [])) := rfl
  -- one copy is put in at the end, then one in the middle
  have hOnce := (compile_repeated (member_buoySpec _ _) hItems hItems' hFirst hAggregate text).mp
    hText
  have hMore : clauseItems (member "filters" (buoySpec [firstItem, yearItem, firstItem])) =
      .ok ([firstItem] ++ yearItem :: ([] ++ [firstItem])) := rfl
  have hMore' : clauseItems (member "filters"
      (buoySpec [firstItem, yearItem, yearItem, firstItem])) =
      .ok ([firstItem] ++ yearItem :: ([] ++ yearItem :: [firstItem])) := rfl
  have hTwice := (compile_repeated (member_buoySpec _ _) hMore hMore' hYear hTemporal text).mp hOnce
  exact ⟨text, hText, hOnce, hTwice⟩

end

end SparqlSelect
