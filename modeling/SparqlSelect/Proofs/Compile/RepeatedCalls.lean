import Mathlib.Logic.Relation
import SparqlSelect.Proofs.Compile.AggregateGroups
import SparqlSelect.Proofs.Compile.Repetition
import SparqlSelect.Proofs.Traced.Relation

/-!
# Calls that are made again

A function that is asked for twice is computed once. The first call settles what it asks for: its
item is selected, or its alias is bound, or there is no place for it. What is settled stays so while
calls of the same key on the same variable are made, and a call that is settled changes nothing. The
branch of an aggregate has each pair of an IRI and a variable once, and the variables of the groups
are compared as sets, so one call more makes no difference there either.

How far apart the two calls are matters only for a temporal function that there is no place for: a
call on another variable could make one.

* `FunctionCall.Repeats`, `FunctionCall.Repeated` — lists with one call more, or with several.
* `FunctionCall.Repeated.foldlM_eq` — a loop over calls.
* `aggregation_repeated` — the sub-query of the aggregates.
* `withTemporals_repeated` — the temporal functions.
* `observableQuery_repeated` — the query of some observables.
-/

namespace SparqlSelect

-- ---------------------------------------------------------------------------
-- Lists with calls more
-- ---------------------------------------------------------------------------

namespace FunctionCall

/-- The second list has one call more: a call of the first is made again, after calls of the same
key on the same variable. -/
inductive Repeats : List FunctionCall → List FunctionCall → Prop
  | again {before between after : List FunctionCall} {c : FunctionCall}
    (hBetween : ∀ d ∈ between, d.key = c.key ∧ d.uri = c.uri ∧ d.var = c.var) :
    Repeats (before ++ c :: (between ++ after)) (before ++ c :: (between ++ c :: after))

/-- The second list has any number of calls more, each of them made again. -/
abbrev Repeated : List FunctionCall → List FunctionCall → Prop := Relation.ReflTransGen Repeats

variable {calls calls' others others' : List FunctionCall}

/-- A call may be repeated behind others. -/
theorem Repeats.append_left (h : Repeats calls calls') (xs : List FunctionCall) :
    Repeats (xs ++ calls) (xs ++ calls') := by
  obtain ⟨hBetween⟩ := h
  rw [← List.append_assoc, ← List.append_assoc]
  exact .again hBetween

/-- A call may be repeated in front of others. -/
theorem Repeats.append_right (h : Repeats calls calls') (xs : List FunctionCall) :
    Repeats (calls ++ xs) (calls' ++ xs) := by
  obtain ⟨hBetween⟩ := h
  rename_i before between after c
  have hMore : Repeats (before ++ c :: (between ++ (after ++ xs)))
      (before ++ c :: (between ++ c :: (after ++ xs))) := .again hBetween
  simpa using hMore

/-- What is left of a list with one call more has that call more, or is what is left of the list. -/
theorem Repeats.filter (h : Repeats calls calls') (p : FunctionCall → Bool) :
    Repeated (calls.filter p) (calls'.filter p) := by
  obtain ⟨hBetween⟩ := h
  rename_i before between after c
  cases hc : p c with
  | false => simp [hc, Relation.ReflTransGen.refl]
  | true =>
    have hMore : Repeats (before.filter p ++ c :: (between.filter p ++ after.filter p))
        (before.filter p ++ c :: (between.filter p ++ c :: after.filter p)) :=
      .again fun d hd => hBetween d (List.mem_filter.mp hd).1
    simpa [hc] using Relation.ReflTransGen.single hMore

namespace Repeated

/-- Repetitions in two lists of calls are repetitions in the list of both. -/
theorem append (h : Repeated calls calls') (hOthers : Repeated others others') :
    Repeated (calls ++ others) (calls' ++ others') :=
  (h.lift (· ++ others) fun _ _ hOne => hOne.append_right others).trans
    (hOthers.lift (calls' ++ ·) fun _ _ hOne => hOne.append_left calls')

/-- Choosing among calls treats a call and its repetition alike. -/
theorem filter (h : Repeated calls calls') (p : FunctionCall → Bool) :
    Repeated (calls.filter p) (calls'.filter p) :=
  h.lift' (List.filter p) fun _ _ hOne => hOne.filter p

/-- Repetitions in the parts are repetitions in the whole. -/
theorem flatMap {α β : Type} {R : α → β → Prop} {xs : List α} {ys : List β}
    {f : α → List FunctionCall} {g : β → List FunctionCall} (h : List.Forall₂ R xs ys)
    (hEach : ∀ x y, R x y → Repeated (f x) (g y)) : Repeated (xs.flatMap f) (ys.flatMap g) := by
  induction h with
  | nil => exact .refl
  | cons hHead _ ih =>
    rw [List.flatMap_cons, List.flatMap_cons]
    exact (hEach _ _ hHead).append ih

/-- What one call more does not change several do not change. -/
theorem congr {α : Type} {f : List FunctionCall → α} (h : Repeated calls calls')
    (hOne : ∀ xs xs', Repeats xs xs' → f xs' = f xs) : f calls' = f calls := by
  induction h with
  | refl => rfl
  | tail _ hLast ih => exact (hOne _ _ hLast).trans ih

/-- Repetitions bring no call that was not there. -/
theorem mem_iff (h : Repeated calls calls') (d : FunctionCall) : d ∈ calls' ↔ d ∈ calls := by
  refine (h.congr (f := (d ∈ ·)) ?_).to_iff
  rintro _ _ ⟨-⟩
  simp only [List.mem_append, List.mem_cons, eq_iff_iff]
  tauto

/-- The first call stays the first. -/
theorem head?_eq (h : Repeated calls calls') : calls'.head? = calls.head? := by
  refine h.congr ?_
  rintro _ _ ⟨-⟩
  simp

/-- The calls have the same of something, each at its first place. -/
theorem eraseDups_map {α : Type} [BEq α] [LawfulBEq α] (f : FunctionCall → α)
    (h : Repeated calls calls') : (calls'.map f).eraseDups = (calls.map f).eraseDups := by
  refine h.congr (f := fun xs => (xs.map f).eraseDups) ?_
  rintro _ _ ⟨-⟩
  rename_i before between after c
  have hThere : f c ∈ (before ++ c :: between).map f := List.mem_map_of_mem (by simp)
  have hOnce := eraseDups_append_congr (eraseDups_concat_of_mem hThere) (after.map f)
  simpa using hOnce

/-- A loop comes to the same if each call settles something, the calls of the same key on the same
variable leave it settled, and a call for which it is settled changes nothing. -/
theorem foldlM_eq {β ε : Type} {step : β → FunctionCall → Except ε β}
    {I : FunctionCall → β → Prop} (h : Repeated calls calls')
    (hFirst : ∀ c b b', step b c = .ok b' → I c b')
    (hOther : ∀ c d b b', d.key = c.key ∧ d.uri = c.uri ∧ d.var = c.var → I c b →
      step b d = .ok b' → I c b')
    (hAgain : ∀ c b, I c b → step b c = .ok b) (b : β) :
    calls'.foldlM step b = calls.foldlM step b := by
  refine h.congr (f := fun xs => xs.foldlM step b) ?_
  rintro _ _ ⟨hBetween⟩
  exact foldlM_again (hFirst _) (fun d hd b b' => hOther _ d b b' (hBetween d hd)) (hAgain _) _ _ b

/-- The groups of the calls have the same keys, and each of them has calls more. -/
theorem grouped (h : Repeated calls calls') :
    List.Forall₂ (fun entry entry' => entry'.1 = entry.1 ∧ Repeated entry.2 entry'.2)
      (FunctionCall.grouped calls) (FunctionCall.grouped calls') := by
  rw [FunctionCall.grouped, FunctionCall.grouped, h.eraseDups_map (·.key),
    List.forall₂_map_left_iff, List.forall₂_map_right_iff, List.forall₂_same]
  exact fun key _ => ⟨rfl, h.filter _⟩

end Repeated

end FunctionCall

open FunctionCall

-- ---------------------------------------------------------------------------
-- Aggregates
-- ---------------------------------------------------------------------------

namespace Aggregation

/-- Groups with the same keys, of which the second have calls more. -/
abbrev RepeatedGroups : List (String × List FunctionCall) → List (String × List FunctionCall) →
    Prop :=
  List.Forall₂ fun entry entry' => entry'.1 = entry.1 ∧ Repeated entry.2 entry'.2

section

variable {groups groups' : List (String × List FunctionCall)}
  {entry entry' : String × List FunctionCall}

/-- The same calls are selected. -/
theorem select_repeated {calls calls' : List FunctionCall} (h : Repeated calls calls')
    (selected : List FunctionCall) :
    calls'.foldlM select selected = calls.foldlM select selected := by
  -- once a call is selected, its item is there, and stays there, and selects nothing again
  refine h.foldlM_eq
    (I := fun c selected => ∃ d ∈ selected, d.selectItem = c.selectItem) ?_ ?_ ?_ selected
  · intro c before after hStep
    obtain ⟨hThere, rfl⟩ | ⟨-, -, rfl⟩ := select_eq_ok hStep
    · exact hThere
    · exact ⟨c, by simp, rfl⟩
  · rintro c d before after - ⟨e, he, hSame⟩ hStep
    obtain ⟨-, rfl⟩ | ⟨-, -, rfl⟩ := select_eq_ok hStep
    · exact ⟨e, he, hSame⟩
    · exact ⟨e, List.mem_append_left _ he, hSame⟩
  · rintro c selected ⟨d, hd, hSame⟩
    have hAny : selected.any (·.selectItem == c.selectItem) = true :=
      List.any_eq_true.mpr ⟨d, hd, beq_iff_eq.mpr hSame⟩
    rw [select, hAny, if_pos rfl]

/-- The same branch is written. -/
theorem isBranchOf_repeated (hKey : entry'.1 = entry.1) (h : Repeated entry.2 entry'.2)
    (g : Group) : IsBranchOf entry' g ↔ IsBranchOf entry g := by
  have hBranch (first : FunctionCall) :
      branch entry'.1 first entry'.2 = branch entry.1 first entry.2 := by
    rw [branch, branch, bindings, bindings, h.eraseDups_map, hKey]
  have hHead (entry : String × List FunctionCall) : IsBranchOf entry g ↔
      ∃ first, entry.2.head? = some first ∧ branch entry.1 first entry.2 = .ok g := by
    simp only [IsBranchOf, List.head?_eq_some_iff]
    exact exists_congr fun first => exists_and_right
  rw [hHead, hHead, h.head?_eq]
  simp only [hBranch]

/-- The branches of the groups do not depend on repetitions. -/
theorem written_repeated (h : RepeatedGroups groups groups') (branches : List Group) :
    List.Forall₂ IsBranchOf groups' branches ↔ List.Forall₂ IsBranchOf groups branches := by
  induction h generalizing branches with
  | nil => exact Iff.rfl
  | cons hEntry _ ih =>
    simp only [List.forall₂_cons_left_iff, isBranchOf_repeated hEntry.1 hEntry.2, ih]

/-- Groups with repetitions ask for the same bindings. -/
theorem RepeatedGroups.rearranged (h : RepeatedGroups groups groups') :
    Rearranged groups groups' :=
  ⟨groups, .refl _, h.imp fun _ _ ⟨hKey, hCalls⟩ => ⟨hKey, hCalls.mem_iff⟩⟩

/-- What the groups ask for is repeated as the calls are. -/
theorem RepeatedGroups.asked (h : RepeatedGroups groups groups') :
    RepeatedGroups (asked groups) (asked groups') := by
  refine List.rel_filter ?_ h
  intro entry entry' ⟨hKey, hCalls⟩
  have hSame : Reshuffled entry entry' := ⟨hKey, hCalls.mem_iff⟩
  simpa only [Bool.not_eq_true', List.isEmpty_eq_false_iff] using hSame.ne_nil_iff.symm

/-- A sub-query is gathered from both groups or from neither. -/
theorem gathers_repeated (h : RepeatedGroups groups groups') {branches : List Group}
    {selected : List FunctionCall} {a : Aggregation} :
    Gathers groups' branches selected a ↔ Gathers groups branches selected a := by
  have hAsked := RepeatedGroups.asked h
  have hSome : Aggregation.asked groups' ≠ [] ↔ Aggregation.asked groups ≠ [] := by
    rw [← List.length_pos_iff, ← List.length_pos_iff, hAsked.length_eq]
  have hWritten := written_repeated hAsked branches
  have hSelects : (groups'.flatMap (·.2)).foldlM select [] =
      (groups.flatMap (·.2)).foldlM select [] :=
    select_repeated (Repeated.flatMap h fun _ _ hEntry => hEntry.2) []
  have hUnite : sameVars (Aggregation.asked groups') = sameVars (Aggregation.asked groups) := by
    rw [Bool.eq_iff_iff, sameVars_iff, sameVars_iff,
      (RepeatedGroups.rearranged hAsked).aggregateAlike_iff]
  -- each of the four facts is about the entries, and none of them sees the repeated call
  constructor
  · rintro ⟨hNonempty, hBranches, hSelected, hShape⟩
    exact ⟨hSome.mp hNonempty, hWritten.mp hBranches, hSelects ▸ hSelected, hUnite ▸ hShape⟩
  · rintro ⟨hNonempty, hBranches, hSelected, hShape⟩
    exact ⟨hSome.mpr hNonempty, hWritten.mpr hBranches, hSelects ▸ hSelected, hUnite ▸ hShape⟩

end

end Aggregation

open Aggregation

variable {groups groups' : List (String × List FunctionCall)} {calls calls' : List FunctionCall}
  {q q' : SelectQuery} {c d : FunctionCall} {done : Bool}

/-- The same sub-query is computed. -/
theorem aggregation_repeated (h : RepeatedGroups groups groups') :
    Alike Eq (aggregation groups).outcome (aggregation groups').outcome := by
  refine alike_eq_iff.mpr fun result => ?_
  cases result with
  | none =>
    rw [aggregation_eq_none_iff, aggregation_eq_none_iff, ← List.length_eq_zero_iff,
      (RepeatedGroups.asked h).length_eq, List.length_eq_zero_iff]
  | some a => simp only [aggregation_eq_some_iff, gathers_repeated h]

/-- Calls that are repeated give the same aggregates. -/
theorem withAggregates_repeated (q : SelectQuery) (h : RepeatedGroups groups groups') :
    Alike Eq (q.withAggregates groups).outcome (q.withAggregates groups').outcome := by
  simp only [SelectQuery.withAggregates, Traced.outcome_bind]
  refine (aggregation_repeated h).bind ?_
  rintro result _ rfl
  exact .refl (fun _ => rfl) _

-- ---------------------------------------------------------------------------
-- Temporal functions
-- ---------------------------------------------------------------------------

/-- What one call comes to, without whether it was injected. -/
def SelectQuery.injectOne (q : SelectQuery) (c : FunctionCall) : Except Failure SelectQuery :=
  (q.inject c).outcome.map (·.1)

/-- The query after a run is that of a loop over the calls. -/
theorem Injection.run_query (calls : List FunctionCall) (i : Injection) :
    (run calls i).2.outcome.map (fun _ => (run calls i).1.query) =
      calls.foldlM SelectQuery.injectOne i.query := by
  induction calls generalizing i with
  | nil => rfl
  | cons c rest ih =>
    rw [run, List.foldlM_cons, SelectQuery.injectOne]
    cases hInject : i.query.inject c with
    | mk notes outcome =>
      cases outcome with
      | error f => rfl
      | ok result =>
        obtain ⟨q, done⟩ := result
        -- the next state carries the query that the step has left
        have hNext : (i.next c q done).query = q := by cases done <;> rfl
        have hRest := ih (i.next c q done)
        rw [hNext] at hRest
        exact hRest

/-- A query is given the temporal functions call by call. -/
theorem withTemporals_query (q : SelectQuery) (calls : List FunctionCall) :
    (q.withTemporals calls).outcome.map (·.query) = calls.foldlM SelectQuery.injectOne q := by
  have hRun := Injection.run_query calls (.start q)
  change _ = calls.foldlM SelectQuery.injectOne q at hRun
  rw [← hRun, SelectQuery.withTemporals]
  dsimp only
  rw [Traced.outcome_bind]
  cases (Injection.run calls (.start q)).2.outcome <;> rfl

/-- A call that was passed over is so after a call of the same key on the same variable: there was
no place for that one either. -/
theorem SelectQuery.Passes.inject (hSame : d.key = c.key ∧ d.uri = c.uri ∧ d.var = c.var)
    (hPasses : q.Passes c) (h : (q.inject d).outcome = .ok (q', done)) : q'.Passes c := by
  obtain ⟨hKey, hUri, hVar⟩ := hSame
  obtain ⟨rfl, -⟩ | ⟨g, hFound, -, ⟨-, rfl⟩ | ⟨place, b, -, hPlace, -⟩⟩ := inject_eq_ok h
  · exact hPasses
  · rwa [SelectQuery.Passes, SelectQuery.body_project]
  · have hNone : bindingPlace g c = none := by
      rw [hKey] at hFound
      exact bindingPlace_eq_none_iff.mpr (hPasses g hFound).2
    rw [bindingPlace, hUri, hVar, ← bindingPlace, hNone] at hPlace
    cases hPlace

/-- The same query comes of the temporal functions. -/
theorem withTemporals_repeated (q : SelectQuery) (h : Repeated calls calls') :
    Alike (fun done done' => done.query = done'.query) (q.withTemporals calls).outcome
      (q.withTemporals calls').outcome := by
  have hLoop : calls'.foldlM SelectQuery.injectOne q = calls.foldlM SelectQuery.injectOne q := by
    -- a call is settled if it has been injected, or if there is no place for it
    refine h.foldlM_eq (I := fun c q => q.Has c ∨ q.Passes c) ?_ ?_ ?_ q
    · intro c q q' hStep
      obtain ⟨⟨q', done⟩, hInject, rfl⟩ := map_eq_ok_iff.mp hStep
      cases done with
      | true =>
        exact .inl ⟨binds_of_inject hInject, (mem_projection_inject hInject).mpr (.inr ⟨rfl, rfl⟩)⟩
      | false =>
        obtain ⟨-, rfl, hPasses⟩ | ⟨hTrue, -⟩ := inject_cases hInject
        · exact .inr hPasses
        · cases hTrue
    · intro c d q q' hSame hSettled hStep
      obtain ⟨⟨q', done⟩, hInject, rfl⟩ := map_eq_ok_iff.mp hStep
      exact hSettled.imp (·.inject hInject) (·.inject hSame hInject)
    · rintro c q (hHas | hPasses)
      · exact map_eq_ok_iff.mpr ⟨_, inject_of_has hHas, rfl⟩
      · exact map_eq_ok_iff.mpr ⟨_, inject_of_passes hPasses, rfl⟩
  rw [← withTemporals_query, ← withTemporals_query] at hLoop
  exact alike_of_map_eq hLoop.symm

-- ---------------------------------------------------------------------------
-- Observables
-- ---------------------------------------------------------------------------

/-- Notes that ask for the same variables, and for functions again, give the same query. -/
theorem observableQuery_repeated {s : Settings} {r r' : Request} {subgraphs : List Subgraph}
    {notes notes' : List Note} (hModifiers : r.modifiers = r'.modifiers)
    (hSelected : Traced.selectedVars notes = Traced.selectedVars notes')
    (hCalls : ∀ category, Repeated (Traced.calls category notes) (Traced.calls category notes')) :
    Alike Eq (s.observableQuery r subgraphs notes).outcome
      (s.observableQuery r' subgraphs notes').outcome := by
  have hGroups : RepeatedGroups (aggregateGroups notes) (aggregateGroups notes') :=
    (hCalls .aggregate).grouped
  have hTemporals : Repeated (temporalCalls notes) (temporalCalls notes') :=
    Repeated.flatMap (hCalls .temporal).grouped fun _ _ hEntry => hEntry.2
  -- both runs read the same modifiers and the same selected variables
  simp only [Settings.observableQuery, Settings.assembledQuery, Traced.outcome_bind, ← hModifiers,
    ← hSelected]
  refine Alike.same _ fun _ _ => Alike.same _ fun modifiers _ => ?_
  refine (withAggregates_repeated _ hGroups).bind ?_
  rintro ⟨query, aggregates⟩ _ rfl
  refine (withTemporals_repeated query hTemporals).bind ?_
  rintro done done' hQuery
  rw [hQuery]
  exact .refl (fun _ => rfl) _

end SparqlSelect
