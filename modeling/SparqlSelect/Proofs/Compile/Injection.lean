import SparqlSelect.Proofs.Compile.Drafts
import SparqlSelect.Proofs.Query.Projection

/-!
# Injecting temporal functions

What one call does to a query, and from it what a run of calls keeps. A call is passed over, or its
alias is there already and is selected, or a binding that fits is put into the group of its key.

* `inject_eq_ok` — everything that one call may do.
* `inject_same` — what no call changes.
* `withTemporals_keeps` — the invariant of all calls.
* `withTemporals_reports` — a run step by step, and what it reports of each call.
* `Group.Everywhere.putBinding`, `var_of_bound` — the two ways in which a call gets its alias.
-/

namespace SparqlSelect

/-- A call that does not fail is passed over, or finds its alias bound in the group of its key, or
puts a binding into that group. -/
theorem inject_eq_ok {q q' : SelectQuery} {c : FunctionCall} {done : Bool}
    (h : (q.inject c).outcome = .ok (q', done)) :
    (q' = q ∧ done = false) ∨
    ∃ g, q.body.ofOrigin? (some c.key) = some g ∧ done = true ∧
      ((g.binds.any (·.var == c.resultVar) = true ∧ q' = q.project c.resultVar) ∨
      ∃ place b, g.binds.any (·.var == c.resultVar) = false ∧ bindingPlace g c = some place ∧
        b = ⟨c.text, c.resultVar⟩ ∧ b.Fits ∧
        q' = { q with body := q.body.updateOrigin (some c.key) (·.putBinding place b) }.project
          c.resultVar) := by
  unfold SelectQuery.inject at h
  -- is there a group of the key, is the alias bound in it, is there a place for the binding
  split at h
  · simp only [Traced.outcome_bind, Traced.outcome_log, bind_eq_ok_iff] at h
    obtain ⟨-, -, h⟩ := h
    cases h
    exact .inl ⟨rfl, rfl⟩
  rename_i g hg
  split at h
  · rename_i hAny
    cases h
    exact .inr ⟨g, hg, rfl, .inl ⟨hAny, rfl⟩⟩
  rename_i hAny
  split at h
  · simp only [Traced.outcome_bind, Traced.outcome_log, bind_eq_ok_iff] at h
    obtain ⟨-, -, h⟩ := h
    cases h
    exact .inl ⟨rfl, rfl⟩
  · rename_i place hPlace
    simp only [Traced.outcome_bind, Traced.outcome_lift, Traced.outcome_log, bind_eq_ok_iff] at h
    obtain ⟨b, hb, -, -, -, -, h⟩ := h
    cases h
    obtain ⟨hText, hVar, hFits⟩ := checkBinding_eq_ok_iff.mp hb
    have hEq : b = ⟨c.text, c.resultVar⟩ := by
      obtain ⟨e, v⟩ := b
      cases hText
      cases hVar
      rfl
    exact .inr ⟨g, hg, rfl, .inr ⟨place, b, Bool.not_eq_true _ ▸ hAny, hPlace, hEq, hFits, rfl⟩⟩

/-- A call changes neither the prefixes nor the modifiers of a query. -/
theorem inject_same {q q' : SelectQuery} {c : FunctionCall} {done : Bool}
    (h : (q.inject c).outcome = .ok (q', done)) :
    q'.prefixes = q.prefixes ∧ q'.modifiers = q.modifiers := by
  obtain ⟨rfl, -⟩ | ⟨g, -, -, ⟨-, rfl⟩ | ⟨place, b, -, -, -, -, rfl⟩⟩ := inject_eq_ok h
  · exact ⟨rfl, rfl⟩
  · exact ⟨SelectQuery.prefixes_project .., SelectQuery.modifiers_project ..⟩
  · exact ⟨SelectQuery.prefixes_project .., SelectQuery.modifiers_project ..⟩

/-- What each call keeps holds after a run, also after one that fails. -/
theorem Injection.run_keeps {I : SelectQuery → Prop} {calls : List FunctionCall} {i : Injection}
    (hStep : ∀ c ∈ calls, ∀ q q' done, I q → (q.inject c).outcome = .ok (q', done) → I q')
    (hI : I i.query) : I (Injection.run calls i).1.query := by
  induction calls generalizing i with
  | nil => exact hI
  | cons c rest ih =>
    rw [Injection.run]
    -- a run stops at the first call that fails, with what the calls before it did
    split
    · exact hI
    · rename_i notes q done hInject
      have hq : I q := hStep c List.mem_cons_self i.query q done hI (by rw [hInject])
      refine ih (fun c hc => hStep c (List.mem_cons_of_mem _ hc)) ?_
      unfold Injection.next
      split
      · exact hq
      · exact hq

/-- What each call keeps holds after all of them. -/
theorem withTemporals_keeps {I : SelectQuery → Prop} {calls : List FunctionCall} {q : SelectQuery}
    {done : Injection}
    (hStep : ∀ c ∈ calls, ∀ q q' done, I q → (q.inject c).outcome = .ok (q', done) → I q')
    (hI : I q) (h : (q.withTemporals calls).outcome = .ok done) : I done.query := by
  simp only [SelectQuery.withTemporals, Traced.outcome_bind, bind_eq_ok_iff] at h
  obtain ⟨_, -, h⟩ := h
  cases h
  exact Injection.run_keeps (i := .start q) hStep hI

/-- Calls that are injected into a query one after another, each with whether it was. -/
inductive Injects : SelectQuery → List (FunctionCall × Bool) → SelectQuery → Prop
  | refl (q : SelectQuery) : Injects q [] q
  | step {q q' last : SelectQuery} {c : FunctionCall} {done : Bool}
      {steps : List (FunctionCall × Bool)} : (q.inject c).outcome = .ok (q', done) →
    Injects q' steps last → Injects q ((c, done) :: steps) last

/-- The aliases of the calls that were injected. -/
def aliasesOf (steps : List (FunctionCall × Bool)) (done : Bool) : List String :=
  (steps.filter (·.2 == done)).map (·.1.resultVar)

/-- What is reported of some steps: the query after them, and the aliases of the calls that were and
were not injected. -/
structure Injection.Reports (i : Injection) (q : SelectQuery) (steps : List (FunctionCall × Bool)) :
    Prop where
  injects : Injects q steps i.query
  injected : i.injected = aliasesOf steps true
  skipped : i.skipped = aliasesOf steps false

/-- A run that does not fail goes through all calls and adds to the report of the calls before. -/
theorem Injection.run_injects {calls : List FunctionCall} {i : Injection}
    (h : (Injection.run calls i).2.outcome = .ok ()) :
    ∃ steps, steps.map (·.1) = calls ∧ Injects i.query steps (Injection.run calls i).1.query ∧
      (Injection.run calls i).1.injected = i.injected ++ aliasesOf steps true ∧
      (Injection.run calls i).1.skipped = i.skipped ++ aliasesOf steps false := by
  -- induction on the calls: the lists of aliases grow by the one that was decided
  induction calls generalizing i with
  | nil => exact ⟨[], rfl, .refl _, (List.append_nil _).symm, (List.append_nil _).symm⟩
  | cons c rest ih =>
    rw [Injection.run] at h ⊢
    split at h
    · cases h
    · rename_i notes q done hInject
      obtain ⟨steps, hCalls, hInjects, hInjected, hSkipped⟩ := ih (i := i.next c q done) h
      have hFirst : (i.query.inject c).outcome = .ok (q, done) := by rw [hInject]
      refine ⟨(c, done) :: steps, congrArg _ hCalls, .step hFirst ?_, ?_, ?_⟩
      · cases done <;> exact hInjects
      · cases done <;> simpa [Injection.next, aliasesOf] using hInjected
      · cases done <;> simpa [Injection.next, aliasesOf] using hSkipped

/-- The calls that are injected into a query, step by step. -/
theorem withTemporals_reports {calls : List FunctionCall} {q : SelectQuery} {done : Injection}
    (h : (q.withTemporals calls).outcome = .ok done) :
    ∃ steps, steps.map (·.1) = calls ∧ done.Reports q steps := by
  simp only [SelectQuery.withTemporals, Traced.outcome_bind, bind_eq_ok_iff] at h
  obtain ⟨_, hRun, h⟩ := h
  cases h
  obtain ⟨steps, hCalls, hInjects, hInjected, hSkipped⟩ :=
    Injection.run_injects (i := .start q) hRun
  exact ⟨steps, hCalls, hInjects, hInjected, hSkipped⟩

/-- What each call keeps holds after some of them. -/
theorem Injects.keeps {I : SelectQuery → Prop} {q last : SelectQuery}
    {steps : List (FunctionCall × Bool)} (h : Injects q steps last)
    (hStep : ∀ c q q' done, I q → (q.inject c).outcome = .ok (q', done) → I q') (hI : I q) :
    I last := by
  induction h with
  | refl q => exact hI
  | step hInject _ ih => exact ih (hStep _ _ _ _ hI hInject)

/-- The aliases of the calls that are injected are selected, in their order. -/
theorem Injects.projection {q last : SelectQuery} {steps : List (FunctionCall × Bool)}
    {items : List String} (h : Injects q steps last) (hq : q.projection = items.eraseDups) :
    last.projection = (items ++ aliasesOf steps true).eraseDups := by
  induction h generalizing items with
  | refl q => rwa [aliasesOf, List.filter_nil, List.map_nil, List.append_nil]
  | @step q q' last c done steps hInject _ ih =>
    obtain ⟨rfl, rfl⟩ | ⟨g, -, rfl, ⟨-, rfl⟩ | ⟨place, b, -, -, -, -, rfl⟩⟩ := inject_eq_ok hInject
    · exact ih hq
    · simpa [aliasesOf] using ih (SelectQuery.projection_project hq c.resultVar)
    · simpa [aliasesOf] using ih (SelectQuery.projection_project
        (q := { q with body := _ }) hq c.resultVar)

/-- A binding that is put into a group stands somewhere among its elements. -/
theorem Group.putBinding_eq (g : Group) (place : Place) (b : Binding) :
    ∃ u v, g.elements = u ++ v ∧ g.putBinding place b = ⟨g.origin, u ++ .bind b :: v⟩ := by
  cases place with
  | after i => exact ⟨_, _, (List.take_append_drop (i + 1) g.elements).symm, rfl⟩
  | atEnd => exact ⟨g.elements, [], (List.append_nil _).symm, rfl⟩

@[simp] theorem Group.origin_putBinding (g : Group) (place : Place) (b : Binding) :
    (g.putBinding place b).origin = g.origin := by
  cases place <;> rfl

/-- A group has a property everywhere after a binding was put into it if it did before and the
binding has it. -/
theorem Group.everywhere_putBinding {P : Element → Prop} {g : Group} {place : Place} {b : Binding} :
    (g.putBinding place b).Everywhere P ↔ g.Everywhere P ∧ P (.bind b) := by
  cases place with
  | after i => rw [putBinding, everywhere_insertAfter, Element.everywhere_bind]
  | atEnd => rw [putBinding, everywhere_add, Element.everywhere_bind]

/-- A property that optional parts, alternatives and nested parts have in any case is kept where a
binding that has it is put into the group of a key. -/
theorem Group.Everywhere.putBinding {P : Element → Prop} {g : Group} {origin : Option String}
    {place : Place} {b : Binding} (hOptional : ∀ g, P (.optional g))
    (hUnion : ∀ branches, P (.union branches)) (hNested : ∀ b, P (.nested b))
    (h : g.Everywhere P) (hb : P (.bind b)) :
    (g.updateOrigin origin (·.putBinding place b)).Everywhere P :=
  (congruence_everywhere P hOptional hUnion hNested).update (fun _ h => h)
    (fun _ hg => everywhere_putBinding.mpr ⟨hg, hb⟩) g h

/-- An alias that is bound in the group of a key was checked as a variable. -/
theorem var_of_bound {g k : Group} {origin : Option String} {v : String}
    (hFits : g.Everywhere Element.Fits) (hFound : g.ofOrigin? origin = some k)
    (hBound : k.binds.any (·.var == v) = true) : Kind.acceptsAny [.var] v = true := by
  obtain ⟨b, hb, hVar⟩ := List.any_eq_true.mp hBound
  have hBinding : b.Fits :=
    hFits k (List.mem_of_find?_eq_some hFound) (.bind b) (Group.mem_binds_iff.mp hb)
  exact beq_iff_eq.mp hVar ▸ hBinding.var

end SparqlSelect
