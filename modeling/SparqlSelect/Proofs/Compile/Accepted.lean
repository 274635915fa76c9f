import SparqlSelect.Proofs.Compile.Demands
import SparqlSelect.Proofs.Compile.Specs
import SparqlSelect.Proofs.Filter.Accepted

/-!
# Conditions on variables never make a request fail

What clauses are translated to and what bounds are merged to is checked again before it goes into a
pattern. For clauses that put conditions on a variable the check always passes: whatever their
values hold, and however many bounds are merged. So an observable with such specs has a pattern.

* `FilterSpec.Constrains` — the specs this is about.
* `exists_writeTriple`, `exists_applySpec` — one spec is written.
* `subgraph_accepts_conditions` — and with it the pattern of an observable.
-/

namespace SparqlSelect

open Pattern

/-- A spec that only puts conditions on its variable: it is on an IRI that can be a predicate and
names no geospatial function, and its datatype, the default one if it has none, is written as a
prefixed name. -/
structure FilterSpec.Constrains (s : Settings) (spec : FilterSpec) : Prop where
  plain : s.isGeoFunction spec.uri = .ok false
  predicate : ∃ predicate, termOf spec.uri = .ok predicate ∧
    Kind.acceptsAny Kind.forPredicate predicate = true
  var : ∃ x, spec.var = some (.str x) ∧ Kind.acceptsAny [.var] x = true
  datatype : s.Abbreviates (spec.datatype.getD s.defaultDatatype)
  clauses : ∀ c ∈ spec.clauses, c.Constrains

-- ---------------------------------------------------------------------------
-- One spec
-- ---------------------------------------------------------------------------

section

variable {s : Settings} {spec : FilterSpec} {o : Observable} {c : Clause}

/-- A variable can stand where an object is expected. -/
theorem forObject_of_var {x : String} (h : Kind.acceptsAny [.var] x = true) :
    Kind.acceptsAny Kind.forObject x = true :=
  Kind.acceptsAny_forObject_iff.mpr (.inl (Kind.acceptsAny_var_iff.mp h))

/-- The triple of a spec is written if its terms are accepted. -/
theorem exists_writeTriple {subject predicate x : String} (p : Progress)
    (hVar : spec.var = some (.str x)) (hFits : Triple.Fits ⟨subject, predicate, x⟩) :
    ∃ start, p.write (spec.writeTriple subject predicate) = .ok start := by
  have hCheck : checkTriple (.str subject) (.str predicate) (.str x) =
      .ok ⟨subject, predicate, x⟩ := checkTriple_eq_ok_iff.mpr ⟨rfl, rfl, rfl, hFits⟩
  suffices hWrite : ∃ d, spec.writeTriple subject predicate p.draft = .ok d by
    obtain ⟨d, hd⟩ := hWrite
    exact ⟨{ p with draft := d }, map_eq_ok_iff.mpr ⟨d, hd, rfl⟩⟩
  rw [FilterSpec.writeTriple, hVar]
  dsimp only
  split
  · exact ⟨_, Draft.optional_eq_ok_iff.mpr ⟨_, hCheck, rfl⟩⟩
  · exact ⟨_, Draft.also_of_fits hFits _⟩

theorem FilterSpec.Constrains.translate (h : spec.Constrains s) (hc : c ∈ spec.clauses) :
    ∃ found, (s.translate c spec.var spec.datatype).outcome = .ok found ∧
      (∀ e ∈ found, Kind.acceptsAnyWithin s.nesting Kind.forFilter e = .ok true) ∧
      (FilterKind.of c.name = .ok .range → ∀ e ∈ found, Comparison.Writes 0 e) := by
  obtain ⟨x, hVar, hAccepted⟩ := h.var
  rw [hVar]
  exact (h.clauses c hc).translate (Kind.acceptsAny_var_iff.mp hAccepted) h.datatype

/-- The bounds of such a spec can be merged, to a condition that is accepted. -/
theorem FilterSpec.Constrains.merged (h : spec.Constrains s) :
    ∃ merged, mergedExpression (s.bounds spec) = .ok merged ∧
      ∀ e ∈ merged, Kind.acceptsAnyWithin s.nesting Kind.forFilter e = .ok true := by
  refine mergedExpression_accepted fun b hb => ?_
  obtain ⟨c, hc, hBound⟩ := List.mem_filterMap.mp hb
  obtain ⟨hRange, hFragment⟩ := Settings.bound?_eq_some hBound
  obtain ⟨found, hFound, -, hWrites⟩ := h.translate hc
  obtain ⟨-, hGives⟩ := Settings.fragment?_eq_some_iff.mp hFragment
  rw [hFound] at hGives
  have hValue : b.value = c.value := by
    rw [Settings.bound?, if_pos hRange, hFragment] at hBound
    rw [← Option.some.inj hBound]
  refine ⟨hValue ▸ Json.isInRange_iff.mpr (h.clauses c hc).inRange, ?_⟩
  exact hWrites (toOption_eq_some_iff.mp hRange) _ (Except.ok.inj hGives)

/-- Such a spec is written wherever its subject can be one. -/
theorem exists_applySpec (key : String) (h : spec.Constrains s)
    (hSubject : Kind.acceptsAny Kind.forSubject (bracketUrl o.subject) = true) (p : Progress) :
    ∃ p', (s.applySpec o key p spec).outcome = .ok p' := by
  obtain ⟨predicate, hPredicate, hAccepted⟩ := h.predicate
  obtain ⟨x, hVar, hName⟩ := h.var
  obtain ⟨start, hStart⟩ := exists_writeTriple p hVar ⟨hSubject, hAccepted, forObject_of_var hName⟩
  obtain ⟨merged, hMerged, hMergedFits⟩ := h.merged
  -- what a clause writes is the fragment that was found for it, and that is accepted
  have hAdmits : ∀ c ∈ spec.clauses, s.Admits spec c := by
    intro c hc _
    obtain ⟨found, hFound, hFits, -⟩ := h.translate hc
    refine ⟨⟨found, hFound⟩, fun e he => hFits e ?_⟩
    have hFragment := Settings.condition?_eq_some he
    have hGives := (Settings.fragment?_eq_some_iff.mp hFragment).2
    exact Except.ok.inj (hFound.symm.trans hGives)
  exact ⟨_, (applySpec_plain_iff h.plain).mpr
    ⟨predicate, start, merged, hPredicate, hStart, hAdmits, hMerged, hMergedFits, rfl⟩⟩

end

-- ---------------------------------------------------------------------------
-- The pattern of an observable
-- ---------------------------------------------------------------------------

section

variable {s : Settings} {r : Request} {o : Observable} {t : Triple}

theorem exists_applySpecs (key : String) {specs : List FilterSpec}
    (h : ∀ spec ∈ specs, spec.Constrains s)
    (hSubject : Kind.acceptsAny Kind.forSubject (bracketUrl o.subject) = true) (p : Progress) :
    ∃ p', (specs.foldlM (s.applySpec o key) p).outcome = .ok p' := by
  simp only [Traced.outcome_foldlM]
  exact exists_foldlM (fun spec hSpec => exists_applySpec key (h spec hSpec) hSubject) p

/-- **Conditions on variables never make a request fail.** An observable whose terms are accepted,
whose specs only put conditions on their variables and which has no modifiers of its own has a
pattern; each of its clauses gives a condition that is accepted or none, and so do the bounds of
each spec. -/
theorem subgraph_accepts_conditions
    (hTerms : checkTriple (.str (bracketUrl o.subject)) (.str (bracketUrl o.predicate))
      (.str (bracketUrl o.object)) = .ok t)
    (hSort : o.sort? = none) (hLimit : o.limit = none)
    (hSpecs : ∀ spec ∈ r.specsOf (o.key r.keys), spec.Constrains s) :
    (∃ sub, (s.subgraph r o).outcome = .ok sub) ∧
      ∀ spec ∈ r.specsOf (o.key r.keys),
        (∀ c ∈ spec.clauses, ∃ found, (s.translate c spec.var spec.datatype).outcome = .ok found ∧
          ∀ e ∈ found, Kind.acceptsAnyWithin s.nesting Kind.forFilter e = .ok true) ∧
        ∃ merged, (mergeBounds (s.bounds spec)).outcome = .ok merged ∧
          ∀ e ∈ merged, Kind.acceptsAnyWithin s.nesting Kind.forFilter e = .ok true := by
  refine ⟨?_, fun spec hSpec => ⟨fun c hc => ?_, ?_⟩⟩
  · -- every step of the builder is shown to answer, in the order in which it is made
    have hSubject : Kind.acceptsAny Kind.forSubject (bracketUrl o.subject) = true := by
      obtain ⟨hSame, -, -, hFits⟩ := checkTriple_eq_ok_iff.mp hTerms
      rw [Json.str.inj hSame]
      exact hFits.subject
    obtain ⟨done, hDone⟩ := exists_applySpecs (o.key r.keys) hSpecs hSubject
      ⟨{ (Draft.start (some (o.key r.keys))).add (.triple t) with subject := some t.subject }, []⟩
    have hModifiers : o.modifiers = .ok [] := by
      rw [Observable.modifiers, hSort, hLimit]
      rfl
    have hNoted := (Traced.forM_selected (o.terms.filter isVariableTerm)).1
    simp only [Settings.subgraph, Traced.outcome_bind, Traced.outcome_lift, bind_eq_ok_iff]
    exact ⟨_, ⟨⟩, hNoted, _, Draft.triple_eq_ok_iff.mpr ⟨t, hTerms, rfl⟩, done, hDone, [],
      hModifiers, (), rfl, rfl⟩
  · obtain ⟨found, hFound, hFits, -⟩ := (hSpecs spec hSpec).translate hc
    exact ⟨found, hFound, hFits⟩
  · obtain ⟨merged, hMerged, hFits⟩ := (hSpecs spec hSpec).merged
    exact ⟨merged, raise_eq_ok_iff.mpr hMerged, hFits⟩

/-- A clause with a name, a comparison and a value. -/
def Clause.comparing (name comparison : String) (value : Json) : Clause where
  name := .str name
  value := value
  comparison := comparison
  center := .null
  radius := none
  points := []
  combination := ""

theorem Clause.constrains_comparing {name comparison : String} {value : Json} (kind : FilterKind)
    (hName : FilterKind.ofPlainName (FilterKind.plainName name) = kind)
    (hKind : kind ∈ FilterKind.onVariables)
    (hComparison : kind = .range → comparisonSymbol comparison ∈ comparisonSymbols)
    (hValue : value.toDouble ≠ .error .tooLarge) :
    (Clause.comparing name comparison value).Constrains := by
  have hOf : FilterKind.of (.str name) = .ok kind := by rw [← hName]; rfl
  refine ⟨⟨kind, hKind, hOf⟩, fun hRange => hComparison ?_, hValue⟩
  exact Except.ok.inj (hOf.symm.trans hRange)

/-- A text with everything in it that means something in a query: quotes, brackets, connectives,
line breaks and comments. -/
def hostileText : Json := .str "1\"^^xsd:a || (?x) # \\\n\t \x7b"

theorem hostileText_inRange : hostileText.toDouble ≠ .error .tooLarge := by
  rw [hostileText]
  unfold Json.toDouble
  dsimp only
  split
  · nofun
  · nofun

/-- A spec without a datatype whose clauses are of every kind and have values that are hard to
quote. -/
def hostileSpec : FilterSpec where
  uri := .str "x:depth"
  var := some (.str "?d")
  isOptional := true
  isSelectable := false
  datatype := none
  clauses := [.comparing "Contain" "" hostileText, .comparing "range" "gte" hostileText,
    .comparing " RANGE" " < " hostileText, .comparing "bound" "" (.str "not"),
    .comparing "match" "" hostileText, .comparing "regex" "" (.arr [hostileText])]

theorem hostileSpec_constrains : hostileSpec.Constrains .standard where
  plain := rfl
  predicate := ⟨"x:depth", congrArg Except.ok (by decide +kernel), by decide +kernel⟩
  var := ⟨"?d", rfl, by decide⟩
  datatype := ⟨"xsd:string", congrArg Except.ok (by decide +kernel), by decide +kernel⟩
  clauses := by
    -- six clauses, one of each kind and both sides of a range
    simp only [hostileSpec, List.forall_mem_cons]
    refine ⟨?_, ?_, ?_, ?_, ?_, ?_, nofun⟩
    · exact Clause.constrains_comparing .contain (by decide +kernel) (by decide) nofun
        hostileText_inRange
    · exact Clause.constrains_comparing .range (by decide +kernel) (by decide) (by decide +kernel)
        hostileText_inRange
    · exact Clause.constrains_comparing .range (by decide +kernel) (by decide) (by decide +kernel)
        hostileText_inRange
    · exact Clause.constrains_comparing .bound (by decide +kernel) (by decide) nofun
        (by decide +kernel)
    · exact Clause.constrains_comparing .startMatch (by decide +kernel) (by decide) nofun
        hostileText_inRange
    · exact Clause.constrains_comparing .regexMatch (by decide +kernel) (by decide) nofun nofun

/-- An observable without modifiers of its own. -/
def hostileObservable : Observable := ⟨"?st", "x:value", "?d", none, none, .null⟩

/-- A request that has that spec for the predicate of the observable. -/
def hostileRequest : Request where
  observables := [hostileObservable]
  keys := []
  filters := [("x:value", [hostileSpec])]
  sort := none
  limit := none
  sensorPattern := .null

/-- The settings that hold when nothing is set take that spec, which has no datatype. -/
theorem subgraph_accepts_conditions_hostile :
    hostileRequest.specsOf (hostileObservable.key hostileRequest.keys) = [hostileSpec] ∧
      ∃ sub, (Settings.standard.subgraph hostileRequest hostileObservable).outcome = .ok sub := by
  have hSpecsOf : hostileRequest.specsOf (hostileObservable.key hostileRequest.keys) =
      [hostileSpec] := by
    simp [Request.specsOf, hostileRequest, hostileObservable, Observable.key, Observable.keySlot]
  have hTerm : bracketUrl "?st" = "?st" ∧ bracketUrl "x:value" = "x:value" ∧
      bracketUrl "?d" = "?d" := by decide +kernel
  have hTerms : checkTriple (.str (bracketUrl "?st")) (.str (bracketUrl "x:value"))
      (.str (bracketUrl "?d")) = .ok ⟨"?st", "x:value", "?d"⟩ := by
    rw [hTerm.1, hTerm.2.1, hTerm.2.2]
    exact checkTriple_eq_ok_iff.mpr ⟨rfl, rfl, rfl, by decide, by decide, by decide⟩
  have hSpecs : ∀ spec ∈ hostileRequest.specsOf (hostileObservable.key hostileRequest.keys),
      spec.Constrains .standard := by
    rw [hSpecsOf]
    exact List.forall_mem_singleton.mpr hostileSpec_constrains
  exact ⟨hSpecsOf,
    (subgraph_accepts_conditions (o := hostileObservable) hTerms rfl rfl hSpecs).1⟩

end

end SparqlSelect
