import SparqlSelect.Proofs.Compile.Injection
import SparqlSelect.Proofs.Query.Surroundings

/-!
# Injecting only inserts

A call puts at most one binding into a query, and only into the first group of its key, where its
alias is not bound yet. So taking the bindings of the alias out of that group gives back the pattern
before the call, and taking back what some calls added, the last first, gives back the pattern
before all of them. Apart from the pattern a query only changes in what it selects.

* `FunctionCall.GoesBetween` — where in its group a binding comes.
* `Inserts` — what some calls do to a query, one after another.
* `Inserts.takeBack`, `Inserts.projection` — what was there before, and what is selected after.
* `withTemporals_inserts` — every run that does not fail.
-/

namespace SparqlSelect

-- ---------------------------------------------------------------------------
-- The place of a binding
-- ---------------------------------------------------------------------------

/-- No optional element mentions a variable. -/
def NoOptional (var : String) (elements : List Element) : Prop :=
  ∀ body, .optional body ∈ elements → var ∉ body.variables

/-- No triple has a predicate and an object. -/
def NoTriple (predicate object : String) (elements : List Element) : Prop :=
  ∀ t, .triple t ∈ elements → ¬ (t.predicate = predicate ∧ t.object = object)

/-- The binding of a call goes between two parts of a group: directly after the first optional
element that mentions its variable, else directly after the first triple with its predicate and its
variable, else after all elements of a group that mentions its variable. -/
inductive FunctionCall.GoesBetween (c : FunctionCall) (g : Group) :
    List Element → List Element → Prop
  | afterOptional {before after : List Element} {body : Group} :
    g.elements = before ++ .optional body :: after → NoOptional c.var before →
    c.var ∈ body.variables → GoesBetween c g (before ++ [.optional body]) after
  | afterTriple {before after : List Element} {t : Triple} :
    g.elements = before ++ .triple t :: after → NoOptional c.var g.elements →
    NoTriple (bracketUrl c.uri) c.var before → t.predicate = bracketUrl c.uri → t.object = c.var →
    GoesBetween c g (before ++ [.triple t]) after
  | atEnd : NoOptional c.var g.elements → NoTriple (bracketUrl c.uri) c.var g.elements →
    c.var ∈ g.variables → GoesBetween c g g.elements []

section

variable {g : Group} {c : FunctionCall} {var predicate object : String} {elements : List Element}

/-- There is no optional element with the variable exactly if no element is one. -/
theorem noOptional_iff : NoOptional var elements ↔
    ∀ e ∈ elements, e.isOptionalWith var = false := by
  constructor
  · intro h e he
    cases e with
    | optional body => simpa [Element.isOptionalWith] using h body he
    | _ => rfl
  · intro h body hBody
    simpa [Element.isOptionalWith] using h _ hBody

/-- There is no triple with these terms exactly if no element is one. -/
theorem noTriple_iff : NoTriple predicate object elements ↔
    ∀ e ∈ elements, e.isTripleWith predicate object = false := by
  constructor
  · intro h e he
    cases e with
    | triple t => simpa [Element.isTripleWith] using h t he
    | _ => rfl
  · intro h t ht
    simpa [Element.isTripleWith] using h _ ht

/-- The first element with a property, and the elements around it. -/
theorem split_of_findIdx? {p : Element → Bool} {i : Nat} (h : elements.findIdx? p = some i) :
    ∃ before e after, elements = before ++ e :: after ∧ p e = true ∧ (∀ d ∈ before, p d = false) ∧
      elements.take (i + 1) = before ++ [e] ∧ elements.drop (i + 1) = after := by
  obtain ⟨hi, hp, hBefore⟩ := List.findIdx?_eq_some_iff_getElem.mp h
  refine ⟨elements.take i, elements[i], elements.drop (i + 1), ?_, hp, fun d hd => ?_, ?_, rfl⟩
  · rw [List.getElem_cons_drop, List.take_append_drop]
  · obtain ⟨j, hj, rfl⟩ := List.mem_take_iff_getElem.mp hd
    simpa using hBefore j (by omega)
  · exact List.take_succ_eq_append_getElem hi

/-- A binding that is put at the place for a call comes between the two parts of the group. -/
theorem goesBetween_of_place {place : Place} (h : bindingPlace g c = some place) (b : Binding) :
    ∃ u v, c.GoesBetween g u v ∧ g.elements = u ++ v ∧
      g.putBinding place b = ⟨g.origin, u ++ .bind b :: v⟩ := by
  unfold bindingPlace at h
  -- the three places are searched one after the other, and each search that fails is kept as a fact
  -- about the group: the next place is the right one because of it
  split at h
  · rename_i i hi
    cases h
    obtain ⟨before, e, after, hSplit, hThis, hBefore, hTake, hDrop⟩ := split_of_findIdx? hi
    cases e with
    | optional body =>
      refine ⟨before ++ [.optional body], after, .afterOptional hSplit (noOptional_iff.mpr hBefore)
        (by simpa [Element.isOptionalWith] using hThis), by simp [hSplit], ?_⟩
      rw [Group.putBinding, Group.insertAfter, hTake, hDrop]
    | _ => cases hThis
  rename_i hNoOptional
  have hOptional : NoOptional c.var g.elements :=
    noOptional_iff.mpr fun e he => by simpa using List.findIdx?_eq_none_iff.mp hNoOptional e he
  split at h
  · rename_i i hi
    cases h
    obtain ⟨before, e, after, hSplit, hThis, hBefore, hTake, hDrop⟩ := split_of_findIdx? hi
    cases e with
    | triple t =>
      simp only [Element.isTripleWith, Bool.and_eq_true, beq_iff_eq] at hThis
      refine ⟨before ++ [.triple t], after, .afterTriple hSplit hOptional
        (noTriple_iff.mpr hBefore) hThis.1 hThis.2, by simp [hSplit], ?_⟩
      rw [Group.putBinding, Group.insertAfter, hTake, hDrop]
    | _ => cases hThis
  rename_i hNoTriple
  have hTriple : NoTriple (bracketUrl c.uri) c.var g.elements :=
    noTriple_iff.mpr fun e he => by simpa using List.findIdx?_eq_none_iff.mp hNoTriple e he
  split at h
  · rename_i hVar
    cases h
    exact ⟨g.elements, [], .atEnd hOptional hTriple (List.contains_iff_mem.mp hVar), by simp, rfl⟩
  · cases h

/-- The variables of an optional group are variables of the group around it. -/
theorem variables_subset_of_optional {body : Group} (h : .optional body ∈ g.elements) :
    body.variables ⊆ g.variables := by
  intro v hv
  obtain ⟨k, hk, hv⟩ := List.mem_flatMap.mp hv
  exact List.mem_flatMap.mpr ⟨k, Group.mem_all.mpr (.inr ⟨_, h, hk⟩), hv⟩

/-- There is no place for the binding of a call where no triple has its predicate and its variable
and nothing mentions the variable. -/
theorem bindingPlace_eq_none_iff : bindingPlace g c = none ↔
    NoTriple (bracketUrl c.uri) c.var g.elements ∧ c.var ∉ g.variables := by
  constructor
  · intro h
    unfold bindingPlace at h
    split at h
    · cases h
    split at h
    · cases h
    rename_i hNoTriple
    split at h
    · cases h
    rename_i hVar
    exact ⟨noTriple_iff.mpr fun e he => by simpa using List.findIdx?_eq_none_iff.mp hNoTriple e he,
      fun hMem => hVar (List.contains_iff_mem.mpr hMem)⟩
  · rintro ⟨hTriple, hVar⟩
    -- a variable in an optional group is a variable of the group, so that search fails as well
    have hOptional : NoOptional c.var g.elements := fun body hBody hMem =>
      hVar (variables_subset_of_optional hBody hMem)
    have hNoOptional : g.elements.findIdx? (·.isOptionalWith c.var) = none :=
      List.findIdx?_eq_none_iff.mpr fun e he => by simpa using noOptional_iff.mp hOptional e he
    have hNoTriple : g.elements.findIdx? (·.isTripleWith (bracketUrl c.uri) c.var) = none :=
      List.findIdx?_eq_none_iff.mpr fun e he => by simpa using noTriple_iff.mp hTriple e he
    rw [bindingPlace, hNoOptional, hNoTriple]
    dsimp only
    rw [if_neg fun hThere => hVar (List.contains_iff_mem.mp hThere)]

end

-- ---------------------------------------------------------------------------
-- One call
-- ---------------------------------------------------------------------------

namespace SelectQuery

/-- The first group of the key of a call binds the alias. -/
def Binds (q : SelectQuery) (c : FunctionCall) : Prop :=
  ∃ g, q.body.ofOrigin? (some c.key) = some g ∧ c.resultVar ∈ g.binds.map (·.var)

/-- A call is passed over: if there is a group of its key, the first one does not bind the alias,
has no triple with the predicate and the variable, and mentions the variable nowhere. -/
def Passes (q : SelectQuery) (c : FunctionCall) : Prop :=
  ∀ g, q.body.ofOrigin? (some c.key) = some g → c.resultVar ∉ g.binds.map (·.var) ∧
    NoTriple (bracketUrl c.uri) c.var g.elements ∧ c.var ∉ g.variables

/-- A call puts its binding into the first group of its key, which does not bind the alias, and
selects the alias. All that stands around the group stays. -/
inductive Puts (q : SelectQuery) (c : FunctionCall) : SelectQuery → Prop
  | put {around : Surroundings} {u v : List Element} : around.Avoids (some c.key) →
    q.body = around.fill ⟨some c.key, u ++ v⟩ →
    c.resultVar ∉ (Group.mk (some c.key) (u ++ v)).binds.map (·.var) →
    c.GoesBetween ⟨some c.key, u ++ v⟩ u v →
    Puts q c ({ q with
      body := around.fill ⟨some c.key, u ++ Element.bind ⟨c.text, c.resultVar⟩ :: v⟩ }.project
        c.resultVar)

end SelectQuery

section

variable {q q' : SelectQuery} {c : FunctionCall} {done : Bool}

/-- No binding gives a variable exactly if it is not among those given. -/
theorem any_var_eq_false_iff {g : Group} {v : String} :
    g.binds.any (·.var == v) = false ↔ v ∉ g.binds.map (·.var) := by
  simp [List.any_eq_false, List.mem_map]

/-- A call that is not injected was passed over. -/
theorem passes_of_inject (h : (q.inject c).outcome = .ok (q', false)) : q.Passes c := by
  intro g hFound
  rw [SelectQuery.inject, hFound] at h
  dsimp only at h
  -- the only ways to report a failure are the ones in which nothing has a place
  split at h
  · cases h
  rename_i hAny
  split at h
  · rename_i hPlace
    exact ⟨any_var_eq_false_iff.mp (by simpa using hAny), bindingPlace_eq_none_iff.mp hPlace⟩
  · simp only [Traced.outcome_bind, bind_eq_ok_iff] at h
    obtain ⟨_, -, _, -, _, -, h⟩ := h
    cases h

/-- A call that does not fail is passed over, or finds its alias bound and selects it, or puts a
binding into the query. -/
theorem inject_cases (h : (q.inject c).outcome = .ok (q', done)) :
    (done = false ∧ q' = q ∧ q.Passes c) ∨
    (done = true ∧ ((q.Binds c ∧ q' = q.project c.resultVar) ∨ q.Puts c q')) := by
  obtain ⟨rfl, rfl⟩ | ⟨g, hFound, rfl, ⟨hAny, rfl⟩ | ⟨place, b, hAny, hPlace, rfl, -, rfl⟩⟩ :=
    inject_eq_ok h
  · exact .inl ⟨rfl, rfl, passes_of_inject h⟩
  · obtain ⟨b, hb, hVar⟩ := List.any_eq_true.mp hAny
    exact .inr ⟨rfl, .inl ⟨⟨g, hFound, List.mem_map.mpr ⟨b, hb, beq_iff_eq.mp hVar⟩⟩, rfl⟩⟩
  · -- the binding is put between two halves of the group that was found, inside what surrounds it
    obtain ⟨around, hAvoids, hKey, hBody⟩ := Group.exists_surroundings hFound
    obtain ⟨u, v, hBetween, hElements, hPut⟩ := goesBetween_of_place hPlace ⟨c.text, c.resultVar⟩
    obtain ⟨origin, elements⟩ := g
    dsimp only at hKey hElements hPut
    subst hKey hElements
    refine .inr ⟨rfl, .inr ?_⟩
    rw [hBody, Surroundings.updateOrigin_fill hAvoids rfl, hPut]
    exact .put hAvoids hBody (any_var_eq_false_iff.mp hAny) hBetween

end

-- ---------------------------------------------------------------------------
-- Taking back
-- ---------------------------------------------------------------------------

/-- Whether an element binds a variable. -/
def Element.isBindOf (v : String) : Element → Bool
  | .bind b => b.var == v
  | _ => false

/-- A group without its own bindings of a variable. -/
def Group.unbind (g : Group) (v : String) : Group :=
  { g with elements := g.elements.filter (!·.isBindOf v) }

/-- A pattern from which the bindings of some calls are taken back, those of the last call first:
each out of the first group of its key. -/
def Group.takeBack (g : Group) (added : List FunctionCall) : Group :=
  added.foldr (fun c g => g.updateOrigin (some c.key) (·.unbind c.resultVar)) g

/-- Taking a binding out of a group that binds its variable nowhere else leaves the rest. -/
theorem Group.unbind_inserted {origin : Option String} {u v : List Element} {b : Binding}
    (h : b.var ∉ (Group.mk origin (u ++ v)).binds.map (·.var)) :
    (Group.mk origin (u ++ .bind b :: v)).unbind b.var = ⟨origin, u ++ v⟩ := by
  have hKept (e : Element) (he : e ∈ u ++ v) : (!e.isBindOf b.var) = true := by
    cases e with
    | bind d =>
      have hOther : d.var ≠ b.var := fun hSame =>
        h (List.mem_map.mpr ⟨d, Group.mem_binds_iff.mpr he, hSame⟩)
      simpa [Element.isBindOf] using hOther
    | _ => rfl
  rw [List.forall_mem_append] at hKept
  rw [unbind, List.filter_append, List.filter_cons_of_neg (by simp [Element.isBindOf]),
    List.filter_eq_self.mpr hKept.1, List.filter_eq_self.mpr hKept.2]

/-- A binding that was put into the first group of its key can be taken back. -/
theorem SelectQuery.Puts.takeBack {q q' : SelectQuery} {c : FunctionCall} (h : q.Puts c q') :
    q'.body.updateOrigin (some c.key) (·.unbind c.resultVar) = q.body := by
  cases h with
  | put hAvoids hBody hNew hBetween =>
    rw [SelectQuery.body_project, Surroundings.updateOrigin_fill hAvoids rfl,
      Group.unbind_inserted (b := ⟨c.text, c.resultVar⟩) hNew, hBody]

-- ---------------------------------------------------------------------------
-- A run of calls
-- ---------------------------------------------------------------------------

/-- What some calls do to a query one after another, each with whether it was injected; `added` are
those that put a binding. -/
inductive Inserts :
    SelectQuery → List (FunctionCall × Bool) → List FunctionCall → SelectQuery → Prop
  | refl (q : SelectQuery) : Inserts q [] [] q
  | pass {q last : SelectQuery} {c : FunctionCall} {steps : List (FunctionCall × Bool)}
      {added : List FunctionCall} : q.Passes c → Inserts q steps added last →
    Inserts q ((c, false) :: steps) added last
  | select {q last : SelectQuery} {c : FunctionCall} {steps : List (FunctionCall × Bool)}
      {added : List FunctionCall} : q.Binds c → Inserts (q.project c.resultVar) steps added last →
    Inserts q ((c, true) :: steps) added last
  | put {q q' last : SelectQuery} {c : FunctionCall} {steps : List (FunctionCall × Bool)}
      {added : List FunctionCall} : q.Puts c q' → Inserts q' steps added last →
    Inserts q ((c, true) :: steps) (c :: added) last

section

variable {q last : SelectQuery} {steps : List (FunctionCall × Bool)} {added : List FunctionCall}

/-- A run of injections puts in the bindings of those that were done. -/
theorem Injects.inserts (h : Injects q steps last) : ∃ added, Inserts q steps added last := by
  induction h with
  | refl q => exact ⟨[], .refl q⟩
  | step hInject _ ih =>
    obtain ⟨added, hRest⟩ := ih
    obtain ⟨rfl, rfl, hPasses⟩ | ⟨rfl, ⟨hBinds, rfl⟩ | hPuts⟩ := inject_cases hInject
    · exact ⟨added, .pass hPasses hRest⟩
    · exact ⟨added, .select hBinds hRest⟩
    · exact ⟨_ :: added, .put hPuts hRest⟩

/-- Taking back all that was added gives back the pattern before. -/
theorem Inserts.takeBack (h : Inserts q steps added last) : last.body.takeBack added = q.body := by
  induction h with
  | refl q => rfl
  | pass _ _ ih => exact ih
  | select _ _ ih => rw [ih, SelectQuery.body_project]
  | put hPuts _ ih =>
    rw [Group.takeBack, List.foldr_cons]
    exact (congrArg (Group.updateOrigin · _ _) ih).trans hPuts.takeBack

/-- What is no part of the pattern and is not selected stays. -/
theorem Inserts.same (h : Inserts q steps added last) : last.prefixes = q.prefixes ∧
    last.modifiers = q.modifiers ∧ last.distinct = q.distinct := by
  have hProject (q : SelectQuery) (item : String) : (q.project item).distinct = q.distinct := by
    unfold SelectQuery.project
    split <;> rfl
  induction h with
  | refl q => exact ⟨rfl, rfl, rfl⟩
  | pass _ _ ih => exact ih
  | select _ _ ih => simpa [hProject] using ih
  | put hPuts _ ih =>
    cases hPuts
    simpa [hProject] using ih

/-- A query that selects one more item, and then others. -/
theorem SelectQuery.projection_project_append (q : SelectQuery) (item : String)
    (rest : List String) :
    (q.project item).projection ++
        (rest.filter (· ∉ (q.project item).projection)).eraseDups =
      q.projection ++ ((item :: rest).filter (· ∉ q.projection)).eraseDups := by
  by_cases hThere : item ∈ q.projection
  · have hSame : q.project item = q := if_pos (List.contains_iff_mem.mpr hThere)
    rw [hSame, List.filter_cons_of_neg (by simpa using hThere)]
  · have hAdded : (q.project item).projection = q.projection ++ [item] := by
      rw [SelectQuery.project, if_neg (by simpa using hThere)]
    rw [hAdded, List.filter_cons_of_pos (by simpa using hThere), List.eraseDups_cons,
      List.filter_filter, List.append_assoc, List.singleton_append]
    congr 3
    refine List.filter_congr fun s _ => ?_
    by_cases hSame : s = item <;> simp [hSame, hThere]

/-- The aliases of the calls that are injected are selected after all that was selected before, as
far as they are new, each once and in their order. -/
theorem Inserts.projection (h : Inserts q steps added last) : last.projection =
    q.projection ++ ((aliasesOf steps true).filter (· ∉ q.projection)).eraseDups := by
  induction h with
  | refl q => simp [aliasesOf]
  | pass _ _ ih => exact ih
  | @select q last c steps added _ _ ih =>
    rw [ih, SelectQuery.projection_project_append]
    rfl
  | @put q q' last c steps added hPuts _ ih =>
    cases hPuts
    rw [ih, SelectQuery.projection_project_append]
    rfl

end

/-- **Injecting only inserts.** A run of temporal functions that does not fail goes through them one
by one. A call is passed over and changes nothing, or finds its alias bound and selects it, or puts
one binding at its place in the first group of its key and leaves everything around it. Without the
bindings that were added the pattern is the one before. The prefixes and the modifiers stay, and
what is selected is what was selected before, followed by the aliases that were injected and are
new, each once. -/
theorem withTemporals_inserts {q : SelectQuery} {calls : List FunctionCall} {done : Injection}
    (h : (q.withTemporals calls).outcome = .ok done) :
    ∃ steps added, steps.map (·.1) = calls ∧ Inserts q steps added done.query ∧
      done.injected = aliasesOf steps true ∧ done.skipped = aliasesOf steps false ∧
      done.query.body.takeBack added = q.body ∧ done.query.prefixes = q.prefixes ∧
      done.query.modifiers = q.modifiers ∧ done.query.distinct = q.distinct ∧
      done.query.projection =
        q.projection ++ (done.injected.filter (· ∉ q.projection)).eraseDups := by
  obtain ⟨steps, hCalls, hReports⟩ := withTemporals_reports h
  obtain ⟨added, hInserts⟩ := hReports.injects.inserts
  obtain ⟨hPrefixes, hModifiers, hDistinct⟩ := hInserts.same
  have hProjection := hInserts.projection
  rw [← hReports.injected] at hProjection
  exact ⟨steps, added, hCalls, hInserts, hReports.injected, hReports.skipped, hInserts.takeBack,
    hPrefixes, hModifiers, hDistinct, hProjection⟩

/-- A query for what was built since when. -/
def builtQuery : SelectQuery := { SelectQuery.empty with
  projection := ["?st"]
  body := ⟨some "x:built", [.triple ⟨"?st", "x:built", "?since"⟩, .filter "?since > 1900"]⟩ }

/-- A call of a function of a variable in this query. -/
def builtCall (function var : String) : FunctionCall :=
  ⟨.temporal, function, var, "x:built", "?st", "x:built", "?since", "x:built"⟩

/-- The month of a year is asked for before there is a year. -/
def builtCalls : List FunctionCall := [builtCall "MONTH" "?YearSince", builtCall "YEAR" "?since"]

/-- The month is passed over and the year is injected. -/
theorem withTemporals_inserts_year :
    ∃ done, (builtQuery.withTemporals builtCalls).outcome = .ok done ∧
      ∃ steps added, Inserts builtQuery steps added done.query ∧
        done.query.body.takeBack added = builtQuery.body ∧
        done.query.projection = ["?st", "?YearSince"] := by
  have hRun : (builtQuery.withTemporals builtCalls).outcome.isOk = true := by decide +kernel
  obtain ⟨done, hDone⟩ := exists_of_isOk hRun
  obtain ⟨steps, added, -, hInserts, -, -, hBack, -, -, -, hProjection⟩ :=
    withTemporals_inserts hDone
  have hAliases : (builtQuery.withTemporals builtCalls).outcome.toOption.map (·.injected) =
      some ["?YearSince"] := by decide +kernel
  rw [hDone] at hAliases
  have hInjected : done.injected = ["?YearSince"] := Option.some.inj hAliases
  refine ⟨done, hDone, steps, added, hInserts, hBack, ?_⟩
  rw [hProjection, hInjected]
  decide

end SparqlSelect
