import SparqlSelect.Proofs.Compile.Insertions
import SparqlSelect.Proofs.Compile.Temporals

/-!
# Injecting a second time

What a call that was injected leaves behind stays: its alias is bound in the first group of its key
and it is selected. So when all calls are made again, those that were injected change nothing. A
call that was passed over has left nothing behind, and the calls after it may have bound what it
asks for. Then it is injected the second time, and more calls are reported as injected than before.

So a second run repeats the first one exactly if, in the query that the first one leaves, no call
that was passed over finds its alias bound or its variable mentioned.

* `SelectQuery.Has` — what a call that was injected leaves behind; `Injects.has`, that it stays.
* `Injects.stays` — calls that change nothing are passed over or have been injected.
* `withTemporals_again_iff` — when a second run repeats the first.
* `month_of_year_late` — a second run that does not.
-/

namespace SparqlSelect

-- ---------------------------------------------------------------------------
-- What a call leaves behind
-- ---------------------------------------------------------------------------

/-- The alias of a call is bound in the first group of its key, and it is selected. -/
structure SelectQuery.Has (q : SelectQuery) (c : FunctionCall) : Prop where
  binds : q.Binds c
  selects : c.resultVar ∈ q.projection

section

variable {q q' last : SelectQuery} {c d : FunctionCall} {done : Bool}
  {steps : List (FunctionCall × Bool)}

/-- A call is bound if a binding of the first group of its key gives its alias. -/
theorem SelectQuery.binds_iff : q.Binds c ↔
    ∃ bindings, q.body.bindsOf? (some c.key) = some bindings ∧
      c.resultVar ∈ bindings.map (·.var) := by
  simp only [SelectQuery.Binds, Group.bindsOf?, Option.map_eq_some_iff]
  constructor
  · rintro ⟨g, hFound, hBound⟩
    exact ⟨g.binds, ⟨g, hFound, rfl⟩, hBound⟩
  · rintro ⟨_, ⟨g, hFound, rfl⟩, hBound⟩
    exact ⟨g, hFound, hBound⟩

/-- A call takes no alias away from the group of a key. -/
theorem SelectQuery.Binds.inject (hBinds : q.Binds c)
    (h : (q.inject d).outcome = .ok (q', done)) : q'.Binds c := by
  obtain ⟨bindings, hBound, hAlias⟩ := SelectQuery.binds_iff.mp hBinds
  obtain ⟨after, hAfter, ⟨rfl, -⟩ | ⟨-, hPerm⟩⟩ := inject_bindsOf? hBound h
  · exact SelectQuery.binds_iff.mpr ⟨_, hAfter, hAlias⟩
  · exact SelectQuery.binds_iff.mpr
      ⟨_, hAfter, hPerm.mem_iff.mpr (List.mem_cons_of_mem _ hAlias)⟩

/-- The alias of a call that is injected is bound afterwards. -/
theorem binds_of_inject (h : (q.inject c).outcome = .ok (q', true)) : q'.Binds c := by
  obtain ⟨hFalse, -, -⟩ | ⟨-, ⟨hBinds, rfl⟩ | hPuts⟩ := inject_cases h
  · cases hFalse
  · exact hBinds.inject h
  · cases hPuts with
    | @put around u v hAvoids hBody hNew hBetween =>
      refine ⟨⟨some c.key, u ++ .bind ⟨c.text, c.resultVar⟩ :: v⟩, ?_, ?_⟩
      · rw [SelectQuery.body_project]
        exact Surroundings.ofOrigin?_fill hAvoids rfl
      · exact List.mem_map.mpr ⟨⟨c.text, c.resultVar⟩,
          Group.mem_binds_iff.mpr (List.mem_append_right _ List.mem_cons_self), rfl⟩

/-- A call selects its alias if it is injected, and takes away nothing that is selected. -/
theorem mem_projection_inject {v : String} (h : (q.inject d).outcome = .ok (q', done)) :
    v ∈ q'.projection ↔ v ∈ q.projection ∨ done = true ∧ v = d.resultVar := by
  obtain ⟨rfl, rfl, -⟩ | ⟨rfl, ⟨-, rfl⟩ | hPuts⟩ := inject_cases h
  · simp
  · simp [SelectQuery.mem_projection_project]
  · cases hPuts
    simp [SelectQuery.mem_projection_project]

/-- What is there stays there when another call is injected. -/
theorem SelectQuery.Has.inject (hHas : q.Has c) (h : (q.inject d).outcome = .ok (q', done)) :
    q'.Has c :=
  ⟨hHas.binds.inject h, (mem_projection_inject h).mpr (.inl hHas.selects)⟩

/-- After some calls the query has what each of them that was injected left behind. -/
theorem Injects.has (h : Injects q steps last) : ∀ c, (c, true) ∈ steps → last.Has c := by
  induction h with
  | refl q => exact nofun
  | @step q q' last c done steps hInject hRest ih =>
    intro d hd
    rcases List.mem_cons.mp hd with hSame | hd
    · cases hSame
      exact hRest.keeps (I := (·.Has c)) (fun _ _ _ _ hHas hInject => hHas.inject hInject)
        ⟨binds_of_inject hInject, (mem_projection_inject hInject).mpr (.inr ⟨rfl, rfl⟩)⟩
    · exact ih d hd

-- ---------------------------------------------------------------------------
-- Calls that change nothing
-- ---------------------------------------------------------------------------

/-- A call that has been injected is injected again, and nothing changes. -/
theorem inject_of_has (h : q.Has c) : (q.inject c).outcome = .ok (q, true) := by
  obtain ⟨⟨g, hFound, hAlias⟩, hSelected⟩ := h
  have hAny : g.binds.any (·.var == c.resultVar) = true := by simpa using hAlias
  have hSame : q.project c.resultVar = q := if_pos (List.contains_iff_mem.mpr hSelected)
  rw [SelectQuery.inject, hFound]
  dsimp only
  rw [if_pos hAny, hSame]
  rfl

/-- A call for which there is nothing to do is passed over, and nothing changes. -/
theorem inject_of_passes (h : q.Passes c) : (q.inject c).outcome = .ok (q, false) := by
  rw [SelectQuery.inject]
  split
  · rfl
  · rename_i g hFound
    obtain ⟨hAlias, hUnplaced⟩ := h g hFound
    rw [if_neg (by simpa using hAlias), bindingPlace_eq_none_iff.mpr hUnplaced]
    rfl

/-- Calls change nothing if what was left behind by those that are injected is there, and those that
are not were passed over. -/
theorem Injects.stays (h : Injects q steps last) (hHas : ∀ c, (c, true) ∈ steps → q.Has c) :
    last = q ∧ ∀ c, (c, false) ∈ steps → q.Passes c := by
  -- induction on the run: a step that is done again is one the query has already
  induction h with
  | refl q => exact ⟨rfl, nofun⟩
  | @step q q' last c done steps hInject _ ih =>
    have hSame : q' = q := by
      cases done with
      | true =>
        rw [inject_of_has (hHas c List.mem_cons_self)] at hInject
        cases hInject
        rfl
      | false =>
        obtain ⟨-, rfl, -⟩ | ⟨hTrue, -⟩ := inject_cases hInject
        · rfl
        · cases hTrue
    subst hSame
    obtain ⟨hLast, hPasses⟩ := ih fun d hd => hHas d (List.mem_cons_of_mem _ hd)
    refine ⟨hLast, fun d hd => ?_⟩
    rcases List.mem_cons.mp hd with hSame | hd
    · cases hSame
      exact passes_of_inject hInject
    · exact hPasses d hd

/-- Calls that each change nothing change nothing together. -/
theorem Injection.run_of_stays {i : Injection} (hEach : ∀ step ∈ steps,
    (i.query.inject step.1).outcome = .ok (i.query, step.2)) :
    (Injection.run (steps.map (·.1)) i).1 = ⟨i.query, i.injected ++ aliasesOf steps true,
      i.skipped ++ aliasesOf steps false⟩ ∧
    (Injection.run (steps.map (·.1)) i).2.outcome = .ok () := by
  induction steps generalizing i with
  | nil => simp [Injection.run, aliasesOf]
  | cons step rest ih =>
    obtain ⟨c, done⟩ := step
    obtain ⟨hFirst, hRest⟩ := List.forall_mem_cons.mp hEach
    -- a step leaves the query as it is and appends its alias to one of the two lists
    have hNext := ih (i := i.next c i.query done) (by cases done <;> exact hRest)
    rw [List.map_cons, Injection.run]
    generalize i.query.inject c = first at hFirst
    obtain ⟨notes, outcome⟩ := first
    dsimp only at hFirst
    subst hFirst
    refine ⟨hNext.1.trans ?_, hNext.2⟩
    cases done <;> simp [Injection.next, aliasesOf]

/-- Where every call leaves the query as it is, so do all of them, and the aliases tell which were
found. -/
theorem withTemporals_of_stays (hEach : ∀ step ∈ steps,
    (q.inject step.1).outcome = .ok (q, step.2)) :
    (q.withTemporals (steps.map (·.1))).outcome =
      .ok ⟨q, aliasesOf steps true, aliasesOf steps false⟩ := by
  obtain ⟨hLast, hRun⟩ := Injection.run_of_stays (i := .start q) hEach
  rw [SelectQuery.withTemporals]
  dsimp only
  rw [Traced.outcome_bind, hRun, hLast]
  rfl

-- ---------------------------------------------------------------------------
-- The second run
-- ---------------------------------------------------------------------------

/-- The alias of the first call is listed among those of its outcome. -/
theorem aliasesOf_cons (c : FunctionCall) (wasDone done : Bool)
    (rest : List (FunctionCall × Bool)) : aliasesOf ((c, wasDone) :: rest) done =
      if wasDone = done then c.resultVar :: aliasesOf rest done else aliasesOf rest done := by
  cases wasDone <;> cases done <;> rfl

/-- Some calls with whether they were injected, and the same calls of which at least those were. -/
abbrev Surpasses (steps again : List (FunctionCall × Bool)) : Prop :=
  List.Forall₂ (fun a b => a.1 = b.1 ∧ (a.2 = true → b.2 = true)) steps again

/-- A second run injects at least as many calls as the first. -/
theorem Surpasses.length_le {steps again : List (FunctionCall × Bool)}
    (h : Surpasses steps again) :
    (aliasesOf steps true).length ≤ (aliasesOf again true).length := by
  induction h with
  | nil => exact Nat.le_refl _
  | @cons a b _ _ hHead _ ih =>
    obtain ⟨c, wasDone⟩ := a
    obtain ⟨d, done⟩ := b
    rw [aliasesOf_cons, aliasesOf_cons]
    cases wasDone with
    | true =>
      rw [if_pos rfl, if_pos (hHead.2 rfl)]
      exact Nat.succ_le_succ ih
    | false => cases done <;> simp <;> omega

/-- If no more calls are injected than before, they are the same ones. -/
theorem Surpasses.eq_of_length {steps again : List (FunctionCall × Bool)}
    (h : Surpasses steps again)
    (hLength : (aliasesOf again true).length = (aliasesOf steps true).length) :
    again = steps := by
  induction h with
  | nil => rfl
  | @cons a b rest others hHead hRest ih =>
    have hLe := Surpasses.length_le hRest
    obtain ⟨c, wasDone⟩ := a
    obtain ⟨d, done⟩ := b
    obtain ⟨rfl, hDone⟩ := hHead
    rw [aliasesOf_cons, aliasesOf_cons] at hLength
    -- the second run does at least what the first one did, so equal counts leave no room for more
    cases wasDone with
    | true =>
      obtain rfl : done = true := hDone rfl
      rw [ih (by simpa using hLength)]
    | false =>
      cases done with
      | true =>
        simp only [if_true, Bool.false_eq_true, if_false, List.length_cons] at hLength
        omega
      | false => rw [ih (by simpa using hLength)]

/-- In a query that has what some calls left behind, at least these are injected again. -/
theorem Injects.surpasses {again : List (FunctionCall × Bool)} (h : Injects q again last)
    (hHas : ∀ c, (c, true) ∈ steps → q.Has c) (hCalls : steps.map (·.1) = again.map (·.1)) :
    Surpasses steps again := by
  induction h generalizing steps with
  | refl q =>
    obtain rfl := List.map_eq_nil_iff.mp hCalls
    exact .nil
  | @step q q' last c done others hInject hRest ih =>
    cases steps with
    | nil => cases hCalls
    | cons step rest =>
      obtain ⟨d, wasDone⟩ := step
      obtain ⟨rfl, hRestCalls⟩ := List.cons.inj hCalls
      -- a call that was done is done again, and what it needs is still there
      refine .cons ⟨rfl, ?_⟩ (ih (fun e he => ?_) hRestCalls)
      · rintro rfl
        rw [inject_of_has (hHas d List.mem_cons_self)] at hInject
        cases hInject
        rfl
      · exact (hHas e (List.mem_cons_of_mem _ he)).inject hInject

/-- The first group of the key of a call that was passed over never comes to have a triple with its
predicate and its variable: calls change nothing but bindings. -/
theorem Injects.noTriple (h : Injects q steps last) : ∀ c, (c, false) ∈ steps →
    ∀ g, last.body.ofOrigin? (some c.key) = some g →
      NoTriple (bracketUrl c.uri) c.var g.elements := by
  induction h with
  | refl q => exact nofun
  | @step q q' last c done steps hInject hRest ih =>
    intro d hd g hFound
    rcases List.mem_cons.mp hd with hSame | hd
    · obtain ⟨rfl, rfl⟩ := Prod.mk.inj hSame
      -- the steps that follow put in bindings only, so the triples are those at this step
      have hKept : last.body.withoutBindings = q.body.withoutBindings :=
        hRest.keeps (I := fun p => p.body.withoutBindings = q.body.withoutBindings)
          (fun _ _ _ _ hp hInject => (inject_withoutBindings hInject).trans hp)
          (inject_withoutBindings hInject)
      have hLeft := Group.ofOrigin?_withoutBindings last.body (some d.key)
      rw [hKept, Group.ofOrigin?_withoutBindings, hFound] at hLeft
      obtain ⟨k, hk, hSame⟩ := Option.map_eq_some_iff.mp hLeft
      have hTriples : k.triples = g.triples := by
        rw [← Group.triples_withoutBindings, hSame, Group.triples_withoutBindings]
      intro t ht
      refine (passes_of_inject hInject k hk).2.1 t ?_
      rw [← Group.mem_triples_iff] at ht ⊢
      rwa [hTriples]
    · exact ih d hd g hFound

end

/-- **When a second run repeats the first.** After a run of temporal functions that does not fail,
the same run succeeds once more, leaves the query as it is and reports the same of each call,
exactly if in the query that the first run leaves no call that was passed over finds, in the first
group of its key, its alias bound or its variable mentioned. -/
theorem withTemporals_again_iff {q : SelectQuery} {calls : List FunctionCall} {done : Injection}
    (h : (q.withTemporals calls).outcome = .ok done) :
    ∃ steps, steps.map (·.1) = calls ∧ done.Reports q steps ∧
      ((done.query.withTemporals calls).outcome = .ok done ↔
        ∀ c, (c, false) ∈ steps → ∀ g, done.query.body.ofOrigin? (some c.key) = some g →
          c.resultVar ∉ g.binds.map (·.var) ∧ c.var ∉ g.variables) := by
  obtain ⟨steps, hCalls, hReports⟩ := withTemporals_reports h
  have hHas := hReports.injects.has
  refine ⟨steps, hCalls, hReports, fun hAgain => ?_, fun hNone => ?_⟩
  · obtain ⟨again, hSame, hRepeats⟩ := withTemporals_reports hAgain
    -- the second run surpasses the first, and equal reports force them to be the same
    have hMore : Surpasses steps again :=
      hRepeats.injects.surpasses hHas (hCalls.trans hSame.symm)
    obtain rfl := hMore.eq_of_length
      (congrArg List.length (hRepeats.injected.symm.trans hReports.injected))
    intro c hc g hFound
    obtain ⟨hAlias, -, hVar⟩ := (hRepeats.injects.stays hHas).2 c hc g hFound
    exact ⟨hAlias, hVar⟩
  · have hStays : ∀ step ∈ steps,
        (done.query.inject step.1).outcome = .ok (done.query, step.2) := by
      rintro ⟨c, wasDone⟩ hc
      cases wasDone with
      | true => exact inject_of_has (hHas c hc)
      | false =>
        refine inject_of_passes fun g hFound => ?_
        obtain ⟨hAlias, hVar⟩ := hNone c hc g hFound
        exact ⟨hAlias, hReports.injects.noTriple c hc g hFound, hVar⟩
    rw [← hCalls, withTemporals_of_stays hStays, ← hReports.injected, ← hReports.skipped]

/-- The year alone is injected once and for all. -/
theorem withTemporals_again_year :
    ∃ done, (builtQuery.withTemporals [builtCall "YEAR" "?since"]).outcome = .ok done ∧
      (done.query.withTemporals [builtCall "YEAR" "?since"]).outcome = .ok done := by
  have hRun : (builtQuery.withTemporals [builtCall "YEAR" "?since"]).outcome.toOption.map
      (·.skipped) = some [] := by decide +kernel
  obtain ⟨done, hDone, hSkipped⟩ := Option.map_eq_some_iff.mp hRun
  rw [toOption_eq_some_iff] at hDone
  obtain ⟨steps, -, hReports, hAgain⟩ := withTemporals_again_iff hDone
  refine ⟨done, hDone, hAgain.mpr fun c hc => ?_⟩
  have hAlias : c.resultVar ∈ aliasesOf steps false :=
    List.mem_map.mpr ⟨(c, false), List.mem_filter.mpr ⟨hc, rfl⟩, rfl⟩
  rw [← hReports.skipped, hSkipped] at hAlias
  cases hAlias

/-- The month of a year is passed over as long as there is no year, and injected the second time. -/
theorem month_of_year_late :
    ∃ done again, (builtQuery.withTemporals builtCalls).outcome = .ok done ∧
      (done.query.withTemporals builtCalls).outcome = .ok again ∧
      again.query.projection ≠ done.query.projection ∧ again.injected ≠ done.injected := by
  have hCheck : (builtQuery.withTemporals builtCalls).outcome.toOption.any (fun done =>
      (done.query.withTemporals builtCalls).outcome.toOption.any fun again =>
        again.query.projection != done.query.projection && again.injected != done.injected) =
      true := by decide +kernel
  simp only [Option.any_eq_true, Bool.and_eq_true, bne_iff_ne, toOption_eq_some_iff] at hCheck
  obtain ⟨done, hDone, again, hAgain, hSelected, hInjected⟩ := hCheck
  exact ⟨done, again, hDone, hAgain, hSelected, hInjected⟩

end SparqlSelect
