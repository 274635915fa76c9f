import SparqlSelect.Proofs.Compile.Build
import SparqlSelect.Proofs.Compile.Relation
import SparqlSelect.Proofs.Request.Place

/-!
# Values do not change the structure of a query

Two payloads that differ in one value of a clause that looks for a text have queries of the same
structure: everything in them is the same, but for the conditions that this clause gives, and even
these are the same once their literals are masked. If one payload has no query, neither has the
other.

The values go into the queries only through the conditions on a text
(`SparqlSelect.Proofs.Filter.Conditions`), which can stand for one another. That is all that two
runs of the compilation need (`SparqlSelect.Proofs.Compile.Relation`).

* `ClausePlace.SameBut` — conditions in the same place of the two queries.
* `build_structure_fixed` — the queries of the two payloads.
-/

namespace SparqlSelect

namespace ClausePlace

/-- A condition that the clause of a place gives with a value. -/
def IsCondition (p : ClausePlace) (s : Settings) (value : Json) (e : String) : Prop :=
  ∃ uri path spec path' c, FilterSpec.read uri (p.specWith value) path = .ok spec ∧
    Clause.read (p.clauseWith value) path' = .ok c ∧
    (s.translate c spec.var spec.datatype).outcome = .ok (some e)

/-- Conditions that are equal, or those of the clause with either value, masked alike. -/
def SameBut (p : ClausePlace) (s : Settings) (v v' : Json) (e e' : String) : Prop :=
  e = e' ∨ (p.IsCondition s v e ∧ p.IsCondition s v' e' ∧ SameMasked e e')

/-- Whether the clause of a place looks for a text in a variable. -/
structure LooksForText (p : ClausePlace) (value : Json) : Prop where
  kind : ∃ kind, FilterKind.of ((p.clauseWith value).atPath ["selectedFilter", "text"]) = .ok kind ∧
    kind.looksForText = true
  var : ∃ x, (p.specWith value).atPath ["predicateName"] = .str x ∧
    Kind.var.accepts x.toList = true

end ClausePlace

section

variable {s : Settings} {p : ClausePlace} {v v' : Json}

/-- A kind that looks for a text is no range and asks for no function. -/
theorem FilterKind.not_special_of_looksForText {kind : FilterKind}
    (h : kind.looksForText = true) : ¬ (kind = .range ∨ kind.category?.isSome = true) := by
  revert h
  cases kind <;> decide

/-- A variable that is accepted is a text that counts as given. -/
theorem ifSet_of_accepts {x : String} (h : Kind.var.accepts x.toList = true) :
    ifSet (.str x) = some (.str x) := by
  have hSome : x ≠ "" := by
    rintro rfl
    revert h
    decide
  simp [ifSet, Json.isSet, hSome]

/-- The clause with one value can stand for the clause with the other. -/
theorem clause_alike {uri : Json} {path path' : String} {spec spec' : FilterSpec} {c c' : Clause}
    (hText : p.LooksForText v) (hv : v.isMissing = false) (hv' : v'.isMissing = false)
    (hSpec : FilterSpec.read uri (p.specWith v) path = .ok spec)
    (hSpec' : FilterSpec.read uri (p.specWith v') path = .ok spec')
    (hSame : spec' = { spec with clauses := spec'.clauses })
    (hc : Clause.read (p.clauseWith v) path' = .ok c)
    (hc' : Clause.read (p.clauseWith v') path' = .ok c')
    (hSwapped : c' = { c with value := v' }) : c.Alike (p.SameBut s v v') s spec c' := by
  obtain ⟨⟨kind, hKind, hLooks⟩, x, hName, hAccepted⟩ := hText
  obtain ⟨hValue, hSelected⟩ := ClausePlace.readClause_eq_ok hc
  rw [← hSelected] at hKind
  have hVar : spec.var = some (.str x) := by
    rw [ClausePlace.readSpec_var hSpec, hName, ifSet_of_accepts hAccepted]
  have hTranslated := translate_alike (s := s) hKind hLooks hAccepted (hValue ▸ hv) v' hv'
    spec.datatype
  have hUnplaced := translate_unplaced (s := s) hKind hLooks v' spec.datatype
  rw [← hVar, ← hSwapped] at hTranslated
  rw [← hSwapped] at hUnplaced
  refine ⟨by rw [hSwapped], by rw [hSwapped]; rfl, ?_, ?_, ?_⟩
  · rw [hUnplaced]
    exact .refl (fun _ => rfl) _
  · -- the conditions are remembered with the clauses that they come from
    refine ⟨hTranslated.notes, hTranslated.outcome.withOutcomes.mono ?_⟩
    rintro _ _ ⟨hBoth | _, hOutcome, hOutcome'⟩
    · have hSpecVar : spec'.var = spec.var := by rw [hSame]
      have hSpecDatatype : spec'.datatype = spec.datatype := by rw [hSame]
      rw [← hSpecVar, ← hSpecDatatype] at hOutcome'
      have hGiven : p.IsCondition s v _ := ⟨uri, path, spec, path', c, hSpec, hc, hOutcome⟩
      have hOther : p.IsCondition s v' _ := ⟨uri, path, spec', path', c', hSpec', hc', hOutcome'⟩
      exact .some ⟨.inr ⟨hGiven, hOther, hBoth.related⟩, hBoth.accepted⟩
    · exact .none
  · intro other hOther hSpecial
    rw [hKind] at hOther
    cases hOther
    exact absurd hSpecial (FilterKind.not_special_of_looksForText hLooks)

/-- The requests of the two payloads can stand for one another. -/
theorem request_alike (hText : p.LooksForText v) (hv : v.isMissing = false)
    (hv' : v'.isMissing = false) :
    Alike (Request.Alike (p.SameBut s v v') s) (Request.read (p.requestWith v))
      (Request.read (p.requestWith v')) := by
  have hRefl (e : String) : p.SameBut s v v' e e := .inl rfl
  have hSpecs (uri : Json) (path : String) :
      Alike (FilterSpec.Alike (p.SameBut s v v') s) (FilterSpec.read uri (p.specWith v) path)
        (FilterSpec.read uri (p.specWith v') path) := by
    -- the one clause with another value is read into the same clause with that value
    have hClause (path : String) :
        Alike (fun c c' => c = c' ∨ ∃ path, Clause.read (p.clauseWith v) path = .ok c ∧
            Clause.read (p.clauseWith v') path = .ok c' ∧ c' = { c with value := v' })
          (Clause.read (p.clauseWith v) path) (Clause.read (p.clauseWith v') path) :=
      (ClausePlace.readClause_alike path).withOutcomes.mono fun c c' h =>
        .inr ⟨path, h.2.1, h.2.2, h.1⟩
    have hClauses := ClausePlace.readSpec_alike (fun c => .inl rfl) hClause uri path
    refine hClauses.withOutcomes.mono fun spec spec' h => ?_
    obtain ⟨⟨hSame, hEach⟩, hSpec, hSpec'⟩ := h
    refine ⟨hSame, hEach.imp fun c c' hBoth => ?_⟩
    rcases hBoth with rfl | ⟨path', hc, hc', hSwapped⟩
    · exact .refl hRefl spec c
    · exact clause_alike hText hv hv' hSpec hSpec' hSame hc hc' hSwapped
  have hSpecRefl (spec : FilterSpec) : spec.Alike (p.SameBut s v v') s spec :=
    ⟨rfl, List.forall₂_same.mpr fun c _ => .refl hRefl spec c⟩
  exact (ClausePlace.readRequest_alike hSpecRefl hSpecs).mono fun r r' h => ⟨h.1, h.2⟩

/-- **Values do not change the structure of a query.** Let two payloads be the same but for the
value of a clause that looks for a text in a variable, and let neither value be missing. Then the
two compilations leave the same notes, and either both payloads have no query, or both have one and
the queries are the same but for the conditions of that clause, which are the same once their
literals are masked. -/
theorem build_structure_fixed (hText : p.LooksForText v) (hv : v.isMissing = false)
    (hv' : v'.isMissing = false) :
    Traced.Alike (SelectQuery.Alike (p.SameBut s v v')) (s.build (p.requestWith v))
      (s.build (p.requestWith v')) :=
  (Traced.Alike.lift (request_alike hText hv hv')).bind fun _ _ hr =>
    buildRequest_alike (fun _ => .inl rfl) hr

/-- The place of a value of a clause that looks for a year. -/
def yearPlace : ClausePlace where
  request := ⟨[("observables", .arr [.obj [("subject", .str "?st"),
    ("predicate", .str "rdfs:label"), ("object", .str "?name")]])], [], by simp⟩
  key := "rdfs:label"
  entries := ⟨[], [], by simp⟩
  specs := .item [] []
  spec := ⟨[("uri", .str "x:since"), ("predicateName", .str "?since")], [], by simp⟩
  clauses := .item [] []
  clause := ⟨[("selectedFilter", .obj [("text", .str "regex")])], [], by simp⟩
  input := ⟨[], [], by simp⟩

/-- A value that would close the quotes, the call and the pattern, if it could. -/
def hostileValue : Json := .str "\") || 1 = 1) \x7d #\n\\"

theorem build_structure_fixed_hostile :
    ∃ q q', (Settings.standard.build (yearPlace.requestWith (.str "19"))).outcome = .ok q ∧
      (Settings.standard.build (yearPlace.requestWith hostileValue)).outcome = .ok q' ∧
      q.Alike (yearPlace.SameBut Settings.standard (.str "19") hostileValue) q' := by
  have hText : yearPlace.LooksForText (.str "19") :=
    ⟨⟨.regexMatch, by decide +kernel, rfl⟩, "?since", rfl, by decide +kernel⟩
  obtain ⟨q, hq⟩ := exists_of_isOk
    (show (Settings.standard.build (yearPlace.requestWith (.str "19"))).outcome.isOk = true by
      decide +kernel)
  -- the theorem relates the two builds, and the first of them answers
  have hBoth : Traced.Alike _ (Settings.standard.build (yearPlace.requestWith (.str "19")))
      (Settings.standard.build (yearPlace.requestWith hostileValue)) :=
    build_structure_fixed hText rfl rfl
  have hOutcome := hBoth.outcome
  rw [hq] at hOutcome
  generalize (Settings.standard.build (yearPlace.requestWith hostileValue)).outcome = x at hOutcome
  cases hOutcome with
  | ok hAlike => exact ⟨q, _, hq, rfl, hAlike⟩

end

end SparqlSelect
