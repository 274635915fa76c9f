import SparqlSelect.Proofs.Compile.Build
import SparqlSelect.Proofs.Query.Prologue

/-!
# The declared prefixes of a compiled query

A compiled text declares those prefixes of the settings whose names stand free in it. This covers
every name that a triple or a condition holds, except for the steps of a path that follow a slash: a
prefix that no other name uses is left undeclared.

* `build_prefixes` — a query has the prefixes of the settings.
* `compile_declares_names` — which of them its text declares.
* `compile_undeclared_step` — a step that is left without a declaration.
-/

namespace SparqlSelect

theorem locationQuery_prefixes {s : Settings} {r : Request} {q : SelectQuery}
    (h : (s.locationQuery r).outcome = .ok q) : q.prefixes = s.prefixes := by
  simp only [Settings.locationQuery, Traced.outcome_bind, Traced.outcome_lift,
    bind_eq_ok_iff] at h
  obtain ⟨pattern, -, draft, -, done, -, sample, -, terms, -, -, -, h⟩ := h
  cases h
  rfl

/-- A query has the prefixes of the settings. -/
theorem build_prefixes {s : Settings} {payload : Json} {q : SelectQuery}
    (h : (s.build payload).outcome = .ok q) : q.prefixes = s.prefixes := by
  obtain ⟨r, -, hr⟩ := build_eq_ok_iff.mp h
  obtain ⟨subgraphs, -, ⟨-, hr⟩ | ⟨-, hr⟩⟩ := buildRequest_eq_ok hr
  · obtain ⟨modifiers, agg, done, -, -, -, hDone, rfl⟩ := observableQuery_eq_ok hr
    exact withTemporals_keeps (I := fun p => p.prefixes = s.prefixes)
      (fun c _ p p' done hp hInject => (inject_same hInject).1.trans hp)
      (prefixes_extendedQuery ..) hDone
  · exact locationQuery_prefixes hr

/-- **Names are declared.** A compiled text is its declarations, one on each line, and the lines of
the query. A prefix of the settings is declared exactly if its name stands free in those lines. It
does so wherever a term of a triple, a step of a path or the datatype of a text is a name with that
prefix, unless the name is a step right after a slash. -/
theorem compile_declares_names {s : Settings} {payload : Json} {text : String}
    (h : s.compile payload = .ok text) :
    ∃ (q : SelectQuery) (used : List (Json × Json)), (s.build payload).outcome = .ok q ∧
      text = "\n".intercalate
        (used.map (fun (name, iri) => declaration name iri) ++ [q.bodyText]) ∧
      (∀ name iri, (.str name, iri) ∈ used ↔
        (.str name, iri) ∈ s.prefixes ∧ StandsFree (name.toList ++ [':']) q.bodyText.toList) ∧
      ∀ g ∈ q.body.all, ∀ e ∈ g.elements, ∀ lead name rest,
        e.Leads lead (String.toList name ++ ':' :: rest) → lead.getLast? ≠ some '/' →
        ∀ iri, (.str name, iri) ∈ s.prefixes → (.str name, iri) ∈ used := by
  obtain ⟨q, hq, hText⟩ := bind_eq_ok_iff.mp h
  obtain ⟨used, rfl, hUsed⟩ := SelectQuery.text_eq_ok (raise_eq_ok_iff.mp hText)
  rw [build_prefixes hq] at hUsed
  refine ⟨q, used, hq, rfl, hUsed, ?_⟩
  intro g hg e he lead name rest hLeads hSlash iri hIri
  exact (hUsed name iri).mpr ⟨hIri, hLeads.standsFree hg he hSlash⟩

/-- A request for what is reached by a path of two steps. -/
def pathPayload : Json := .obj [("observables", .arr [.obj [
  ("subject", .str "?place"), ("predicate", .str "geo:hasGeometry/rdfs:label"),
  ("object", .str "?name")]])]

/-- The text that the request is compiled to. -/
def pathText : String := "PREFIX geo: <http://www.opengis.net/ont/geosparql#>\n" ++
  "SELECT ?place ?name\nWHERE \x7b\n  ?place geo:hasGeometry/rdfs:label ?name .\n\x7d"

theorem pathPayload_compiles : Settings.standard.compile pathPayload = .ok pathText := by
  have hText : (Settings.standard.compile pathPayload).toOption = some pathText := by
    decide +kernel
  exact toOption_eq_some_iff.mp hText

/-- The pattern of the query holds the triple with the path. -/
theorem pathPayload_triple {q : SelectQuery}
    (hq : (Settings.standard.build pathPayload).outcome = .ok q) :
    .triple ⟨"?place", "geo:hasGeometry/rdfs:label", "?name"⟩ ∈ q.body.elements := by
  have hTriples : ((Settings.standard.build pathPayload).outcome.toOption.map
      fun q => q.body.triples) = some [⟨"?place", "geo:hasGeometry/rdfs:label", "?name"⟩] := by
    decide +kernel
  rw [hq] at hTriples
  refine Group.mem_triples_iff.mp ?_
  rw [show q.body.triples = _ from Option.some.inj hTriples]
  exact List.mem_singleton_self _

/-- The prefix of the first step of the path is declared. -/
theorem compile_declares_names_path :
    Settings.standard.compile pathPayload = .ok pathText ∧
    ∃ (q : SelectQuery) (used : List (Json × Json)), pathText = "\n".intercalate
        (used.map (fun (name, iri) => declaration name iri) ++ [q.bodyText]) ∧
      (.str "geo", .str "http://www.opengis.net/ont/geosparql#") ∈ used := by
  obtain ⟨q, used, hq, hText, -, hNames⟩ := compile_declares_names pathPayload_compiles
  have hLeads : Element.Leads (.triple ⟨"?place", "geo:hasGeometry/rdfs:label", "?name"⟩) []
      ("geo".toList ++ ':' :: "hasGeometry/rdfs:label".toList) :=
    .predicate (by decide) (Pattern.accepts_iff.mp (by decide))
  refine ⟨pathPayload_compiles, q, used, hText, ?_⟩
  exact hNames q.body (Group.mem_all.mpr (.inl rfl)) _ (pathPayload_triple hq) [] "geo" _ hLeads
    (by simp) _ (by simp [Settings.standard, Settings.standardPrefixes])

/-- The second step of the path stands right after a slash, and its prefix is not declared, although
the settings have it. -/
theorem compile_undeclared_step :
    ∃ q, (Settings.standard.build pathPayload).outcome = .ok q ∧
      Settings.standard.compile pathPayload = .ok pathText ∧
      (∃ g ∈ q.body.all, ∃ e ∈ g.elements,
        e.Leads "geo:hasGeometry/".toList "rdfs:label".toList) ∧
      (.str "rdfs", .str "http://www.w3.org/2000/01/rdf-schema#") ∈ Settings.standard.prefixes ∧
      occursIn (declaration (.str "rdfs") (.str "http://www.w3.org/2000/01/rdf-schema#")).toList
        pathText.toList = false := by
  obtain ⟨q, hq, -⟩ := bind_eq_ok_iff.mp pathPayload_compiles
  refine ⟨q, hq, pathPayload_compiles, ⟨q.body, Group.mem_all.mpr (.inl rfl), _,
    pathPayload_triple hq, .predicate (by decide) (Pattern.accepts_iff.mp (by decide +kernel))⟩,
    by simp [Settings.standard, Settings.standardPrefixes], by decide +kernel⟩

end SparqlSelect
