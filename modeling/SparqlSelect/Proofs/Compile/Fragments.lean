import SparqlSelect.Proofs.Compile.Build

/-!
# Every fragment is of a kind for its place

Nothing stands in the pattern of a query that was not checked for its place, at whatever depth.
Drafts write only what they have checked (`SparqlSelect.Proofs.Compile.Drafts`). What is left are
the three stages of a query of observables: the assembled patterns, the sub-query of the aggregates
and the bindings of the temporal functions, which are put into a tree that is there already.

* `buildRequest_fits` — the query of every request.
* `build_fragments_fit` — the query of every payload.
-/

namespace SparqlSelect

/-- A call that is injected leaves only fragments that fit, if there were no others before. -/
theorem inject_fits {q q' : SelectQuery} {c : FunctionCall} {done : Bool}
    (hq : q.body.Everywhere Element.Fits) (h : (q.inject c).outcome = .ok (q', done)) :
    q'.body.Everywhere Element.Fits := by
  obtain ⟨rfl, -⟩ | ⟨g, -, -, ⟨-, rfl⟩ | ⟨place, b, -, -, -, hFits, rfl⟩⟩ := inject_eq_ok h
  · exact hq
  · rwa [SelectQuery.body_project]
  · rw [SelectQuery.body_project]
    have hCongruence := congruence_everywhere Element.Fits (fun _ => trivial) (fun _ => trivial)
      fun _ => trivial
    exact hCongruence.update (fun _ h => h)
      (fun g hg => Group.everywhere_putBinding.mpr ⟨hg, hFits⟩) q.body hq

/-- Every fragment in the query of a request is of a kind for its place. -/
theorem buildRequest_fits {s : Settings} {r : Request} {q : SelectQuery}
    (h : (s.buildRequest r).outcome = .ok q) : q.body.Everywhere Element.Fits := by
  obtain ⟨subgraphs, hSubs, ⟨-, h⟩ | ⟨-, h⟩⟩ := buildRequest_eq_ok h
  · obtain ⟨modifiers, agg, done, -, -, hAgg, hDone, rfl⟩ := observableQuery_eq_ok h
    refine withTemporals_keeps (I := fun q => q.body.Everywhere Element.Fits)
      (fun c _ q q' done hq h => inject_fits hq h) ?_ hDone
    exact (extended_drafted (subgraphs_ok hSubs) hAgg).mono fun _ => Element.IsDrafted.fits
  · exact (locationQuery_drafted h).mono fun _ => Element.IsDrafted.fits

/-- **Every fragment is of a kind for its place.** In the query of every payload, whatever the
settings, the terms of a triple are of the kinds for a subject, a predicate and an object, a
condition is of a kind for a condition, and a binding gives a function to a variable, at whatever
depth they stand. -/
theorem build_fragments_fit {s : Settings} {payload : Json} {q : SelectQuery}
    (h : (s.build payload).outcome = .ok q) : q.body.Everywhere Element.Fits := by
  obtain ⟨r, -, hr⟩ := build_eq_ok_iff.mp h
  exact buildRequest_fits hr

theorem build_fragments_fit_station :
    ∃ q, (Settings.standard.build stationPayload).outcome = .ok q ∧
      q.body.Everywhere Element.Fits := by
  obtain ⟨q, hq⟩ := exists_of_isOk stationPayload_builds
  exact ⟨q, hq, build_fragments_fit hq⟩

end SparqlSelect
