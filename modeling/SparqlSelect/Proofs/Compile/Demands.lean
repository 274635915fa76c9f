import SparqlSelect.Proofs.Compile.Drafts
import SparqlSelect.Proofs.Compile.Notes

/-!
# What a request asks for

The notes that are no messages are demands: variables to select and functions to compute. A step
that succeeds leaves the demands of its parts in order, and what a clause, a spec or an observable
demands can be read off it without running anything. So the demands of a whole request are known in
their order, and no step before or after has a part in them.

* `Traced.demands_bind`, `demands_foldlM`, `demands_mapM` — the demands of sequences and loops.
* `Request.selection`, `Settings.requested` — the variables and the functions in their order.
* `selectedVars_eq`, `calls_eq` — they are what is noted.
-/

namespace SparqlSelect

instance : DecidablePred Note.IsMessage
  | .log _ _ => inferInstanceAs (Decidable True)
  | .selected _ | .requested _ => inferInstanceAs (Decidable False)

/-- The variable that a note asks to select. -/
def Note.selectedVar? : Note → Option String
  | .selected v => some v
  | .log _ _ | .requested _ => none

/-- The function that a note asks for. -/
def Note.call? : Note → Option FunctionCall
  | .requested c => some c
  | .log _ _ | .selected _ => none

namespace Traced

variable {α β : Type}

/-- The notes of a computation that ask for something. -/
def demands (x : Traced α) : List Note := x.notes.filter fun n => ¬ n.IsMessage

@[simp] theorem demands_pure (a : α) : (pure a : Traced α).demands = [] := rfl

@[simp] theorem demands_lift (x : Except Failure α) : (liftM x : Traced α).demands = [] := rfl

/-- Messages ask for nothing. -/
theorem Leaves.demands {x : Traced α} (h : x.Leaves Note.IsMessage) : x.demands = [] :=
  List.filter_eq_nil_iff.mpr fun n hn => by simpa using h n hn

/-- A sequence demands what its parts demand, in order. -/
theorem demands_bind {x : Traced α} {a : α} (h : x.outcome = .ok a) (f : α → Traced β) :
    (x >>= f).demands = x.demands ++ (f a).demands := by
  rw [bind_of_ok h]
  exact List.filter_append ..

/-- A step without demands may be left out of a sequence. -/
theorem demands_bind_of_nil {x : Traced α} {a : α} (h : x.outcome = .ok a) (hNil : x.demands = [])
    (f : α → Traced β) : (x >>= f).demands = (f a).demands := by
  rw [demands_bind h, hNil, List.nil_append]

/-- A loop whose steps have demands of their own demands them in the order of its items. -/
theorem demands_foldlM {step : β → α → Traced β} {g : α → List Note} {xs : List α} {b b' : β}
    (hStep : ∀ a ∈ xs, ∀ b b', (step b a).outcome = .ok b' → (step b a).demands = g a)
    (h : (xs.foldlM step b).outcome = .ok b') : (xs.foldlM step b).demands = xs.flatMap g := by
  induction xs generalizing b with
  | nil => rfl
  | cons a xs ih =>
    rw [List.foldlM_cons] at h ⊢
    obtain ⟨c, hc, hRest⟩ := outcome_bind_eq_ok_iff.mp h
    rw [demands_bind hc, hStep a List.mem_cons_self b c hc,
      ih (fun a ha => hStep a (List.mem_cons_of_mem _ ha)) hRest, List.flatMap_cons]

/-- A list that is computed item by item demands what its items demand, in order. -/
theorem demands_mapM {f : α → Traced β} {g : α → List Note} {xs : List α} {ys : List β}
    (hEach : ∀ a ∈ xs, ∀ b, (f a).outcome = .ok b → (f a).demands = g a)
    (h : (xs.mapM f).outcome = .ok ys) : (xs.mapM f).demands = xs.flatMap g := by
  induction xs generalizing ys with
  | nil => rfl
  | cons a xs ih =>
    rw [List.mapM_cons] at h ⊢
    obtain ⟨b, hb, hRest⟩ := outcome_bind_eq_ok_iff.mp h
    obtain ⟨bs, hbs, -⟩ := outcome_bind_eq_ok_iff.mp hRest
    rw [demands_bind hb, demands_bind hbs, hEach a List.mem_cons_self b hb,
      ih (fun a ha => hEach a (List.mem_cons_of_mem _ ha)) hbs, demands_pure, List.append_nil,
      List.flatMap_cons]

/-- Variables that are noted one by one are demanded in their order. -/
theorem forM_selected (vars : List String) :
    (vars.forM fun v => note (.selected v)).outcome = .ok ⟨⟩ ∧
      (vars.forM fun v => note (.selected v)).demands = vars.map .selected := by
  induction vars with
  | nil => exact ⟨rfl, rfl⟩
  | cons v rest ih =>
    have hFirst : (note (.selected v)).outcome = .ok ⟨⟩ := rfl
    refine ⟨outcome_bind_eq_ok_iff.mpr ⟨⟨⟩, hFirst, ih.1⟩, ?_⟩
    exact (demands_bind hFirst _).trans (congrArg (Note.selected v :: ·) ih.2)

/-- The variables to select are those that are demanded. -/
theorem selectedVars_eq_demands (x : Traced α) :
    selectedVars x.notes = (x.demands.filterMap Note.selectedVar?).eraseDups := by
  rw [selectedVars, demands, List.filterMap_filter]
  refine congrArg _ (List.filterMap_congr fun n _ => ?_)
  cases n <;> simp [Note.IsMessage, Note.selectedVar?]

/-- The functions that are asked for are those that are demanded. -/
theorem calls_eq_demands (category : FunctionCategory) (x : Traced α) :
    calls category x.notes = (x.demands.filterMap Note.call?).filter (·.category = category) := by
  rw [calls, demands, List.filterMap_filter, List.filter_filterMap]
  refine List.filterMap_congr fun n _ => ?_
  cases n <;> simp [Note.IsMessage, Note.call?, Option.filter]

end Traced

-- ---------------------------------------------------------------------------
-- Clauses, specs and observables
-- ---------------------------------------------------------------------------

/-- How the function is computed that a clause asks for, if it was chosen and names one. -/
def Clause.category? (c : Clause) : Option FunctionCategory :=
  if c.isSelected && c.functionName != "" then (FilterKind.of c.name).toOption.bind (·.category?)
  else none

/-- A clause asks for a function of the category of its kind. -/
theorem Clause.category?_eq_some_iff {c : Clause} {category : FunctionCategory} :
    c.category? = some category ↔ c.AsksFor category := by
  unfold Clause.category?
  split
  · rename_i hNamed
    rw [Bool.and_eq_true, bne_iff_ne] at hNamed
    rw [Option.bind_eq_some_iff]
    simp only [toOption_eq_some_iff]
    exact ⟨fun h => ⟨hNamed.1, h, hNamed.2⟩, fun h => AsksFor.kind h⟩
  · rename_i hNamed
    refine ⟨nofun, fun h => absurd ?_ hNamed⟩
    rw [Bool.and_eq_true, bne_iff_ne]
    exact ⟨h.selected, h.named⟩

/-- The variable of a spec, if it is to be selected. -/
def FilterSpec.selected? (spec : FilterSpec) : Option String :=
  if spec.isSelectable then spec.var.map Json.display else none

/-- The call that a clause of a spec asks for, if it asks for one: none on the IRI of a geospatial
function and none without a variable. -/
def Settings.call? (s : Settings) (o : Observable) (key : String) (spec : FilterSpec) (c : Clause) :
    Option FunctionCall :=
  if (s.isGeoFunction spec.uri).toOption = some true then none
  else spec.var.bind fun var => c.category?.map fun category => o.call key category spec var c

/-- The calls that the clauses of a spec ask for, in their order. -/
def Settings.callsOf (s : Settings) (o : Observable) (key : String) (spec : FilterSpec) :
    List FunctionCall := spec.clauses.filterMap (s.call? o key spec)

/-- What a spec of an observable demands. -/
def Settings.specDemands (s : Settings) (o : Observable) (key : String) (spec : FilterSpec) :
    List Note := (spec.selected?.map .selected).toList ++ (s.callsOf o key spec).map .requested

/-- What an observable of a request demands. -/
def Settings.observableDemands (s : Settings) (r : Request) (o : Observable) : List Note :=
  (o.terms.filter isVariableTerm).map .selected ++
    (r.specsOf (o.key r.keys)).flatMap (s.specDemands o (o.key r.keys))

/-- The variables that a request selects, with repetitions: for each observable its terms that are
variables, and the variables of its specs that are to be selected. -/
def Request.selection (r : Request) : List String :=
  r.observables.flatMap fun o =>
    o.terms.filter isVariableTerm ++ (r.specsOf (o.key r.keys)).filterMap (·.selected?)

/-- The functions of a category that a request asks for: observable by observable, spec by spec and
clause by clause. -/
def Settings.requested (s : Settings) (category : FunctionCategory) (r : Request) :
    List FunctionCall :=
  r.observables.flatMap fun o =>
    ((r.specsOf (o.key r.keys)).flatMap (s.callsOf o (o.key r.keys))).filter
      (·.category = category)

/-- A clause of a spec of an observable asks for a function of a variable. The spec is not on the
IRI of a geospatial function. -/
structure Settings.Asks (s : Settings) (r : Request) (category : FunctionCategory) (o : Observable)
    (spec : FilterSpec) (var : Json) (c : Clause) : Prop where
  listed : o ∈ r.observables
  attached : spec ∈ r.specsOf (o.key r.keys)
  plain : s.isGeoFunction spec.uri = .ok false
  bound : spec.var = some var
  among : c ∈ spec.clauses
  asks : c.AsksFor category

section

variable {s : Settings} {spec : FilterSpec} {o : Observable} {key : String} {c : Clause}

open Traced

/-- A clause that asks for a function demands the call. -/
theorem requestFunction_demands {category : FunctionCategory} (hSelected : c.isSelected = true)
    (hKind : ∃ kind, FilterKind.of c.name = .ok kind ∧ kind.category? = some category)
    (hPlain : s.isGeoFunction spec.uri = .ok false) :
    (requestFunction category spec o key c).demands =
      ((s.call? o key spec c).map .requested).toList := by
  have hGeo : ¬ (s.isGeoFunction spec.uri).toOption = some true := by simp [hPlain, Except.toOption]
  have hIgnored : (requestFunction.ignored spec).demands = [] := (leaves_log _ _).demands
  unfold requestFunction
  rw [Settings.call?, if_neg hGeo]
  -- a call is requested when the spec has a variable and the clause a function
  cases hVar : spec.var with
  | none => exact hIgnored
  | some var =>
    dsimp only
    split
    · rename_i hNone
      have hNothing : c.category? = none := by
        rw [beq_iff_eq] at hNone
        simp [Clause.category?, hNone]
      rw [hNothing]
      exact hIgnored
    · rename_i hNamed
      have hAsks : c.category? = some category :=
        Clause.category?_eq_some_iff.mpr ⟨hSelected, hKind, by simpa using hNamed⟩
      rw [hAsks]
      rfl

/-- A clause demands the call that it asks for, and nothing else. -/
theorem applyClause_demands {p p' : SpecProgress}
    (h : (s.applyClause spec o key p c).outcome = .ok p') :
    (s.applyClause spec o key p c).demands = ((s.call? o key spec c).map .requested).toList := by
  unfold Settings.applyClause at h ⊢
  split
  · -- the four ways through a clause, in the order in which they are tried
    rename_i hSelected
    have hNothing : c.category? = none := by
      simp only [Clause.category?, show c.isSelected = false by simpa using hSelected,
        Bool.false_and, Bool.false_eq_true, if_false]
    simp [Settings.call?, hNothing]
  rename_i hSelected
  rw [if_neg hSelected] at h
  obtain ⟨isGeo, hGeo, h⟩ := outcome_bind_eq_ok_iff.mp h
  rw [demands_bind_of_nil hGeo (demands_lift _)]
  replace hGeo : s.isGeoFunction spec.uri = .ok isGeo := raise_eq_ok_iff.mp hGeo
  split
  · rename_i hTrue
    have hPlace : (s.placeClause spec (bracketUrl o.subject) p.toProgress c).Leaves
        Note.IsMessage := placeClause_leaves _ _
    have hLeaves := hPlace.bind (f := fun done => pure ({ p with toProgress := done } :
      SpecProgress)) fun _ _ => leaves_pure
    rw [hLeaves.demands, Settings.call?, if_pos (by rw [hGeo, hTrue]; rfl)]
    rfl
  rename_i hFalse
  rw [if_neg hFalse] at h
  replace hGeo : s.isGeoFunction spec.uri = .ok false := by
    rw [hGeo, (Bool.not_eq_true isGeo).mp hFalse]
  obtain ⟨kind, hKind, h⟩ := outcome_bind_eq_ok_iff.mp h
  rw [demands_bind_of_nil hKind (demands_lift _)]
  replace hKind : FilterKind.of c.name = .ok kind := raise_eq_ok_iff.mp hKind
  -- only the last test can ask for a function: constraining writes messages alone
  split at h
  · rename_i category hCategory
    obtain ⟨⟨⟩, hAsk, -⟩ := outcome_bind_eq_ok_iff.mp h
    rw [demands_bind hAsk, requestFunction_demands (by simpa using hSelected)
      ⟨kind, hKind, hCategory⟩ hGeo, demands_pure, List.append_nil]
  · rename_i hNone
    have hNothing : c.category? = none := by
      simp [Clause.category?, hKind, Except.toOption, hNone]
    simp [(constrain_leaves kind p).demands, Settings.call?, hNothing]

/-- A spec demands its variable, if it is to be selected. -/
theorem noteSelected_demands (spec : FilterSpec) :
    spec.noteSelected.demands = (spec.selected?.map .selected).toList := by
  unfold FilterSpec.noteSelected FilterSpec.selected?
  cases spec.var with
  | none => simp
  | some var => cases spec.isSelectable <;> rfl

/-- A spec demands its variable, if it is to be selected, and the calls of its clauses. -/
theorem applySpec_demands {p p' : Progress} (h : (s.applySpec o key p spec).outcome = .ok p') :
    (s.applySpec o key p spec).demands = s.specDemands o key spec := by
  unfold Settings.applySpec at h ⊢
  obtain ⟨predicate, hPredicate, h⟩ := outcome_bind_eq_ok_iff.mp h
  obtain ⟨start, hStart, h⟩ := outcome_bind_eq_ok_iff.mp h
  obtain ⟨⟨⟩, hNoted, h⟩ := outcome_bind_eq_ok_iff.mp h
  obtain ⟨done, hDone, -⟩ := outcome_bind_eq_ok_iff.mp h
  -- the demands of the clauses are those of each of them, one after the other
  have hClauses := demands_foldlM
    (g := fun c => ((s.call? o key spec c).map Note.requested).toList)
    (fun c _ _ _ hc => applyClause_demands hc) hDone
  rw [demands_bind_of_nil hPredicate (demands_lift _), demands_bind_of_nil hStart (demands_lift _),
    demands_bind hNoted, demands_bind hDone, (writeBounds_leaves _ done).demands, List.append_nil,
    noteSelected_demands, hClauses, Settings.specDemands, Settings.callsOf, List.map_filterMap,
    List.filterMap_eq_flatMap_toList]

/-- An observable demands its variables, and what its specs demand. -/
theorem subgraph_demands {r : Request} {sub : Subgraph}
    (h : (s.subgraph r o).outcome = .ok sub) :
    (s.subgraph r o).demands = s.observableDemands r o := by
  unfold Settings.subgraph at h ⊢
  -- the terms are noted first, then each spec adds its demands; nothing later adds any
  obtain ⟨hTerms, hNoted⟩ := forM_selected (o.terms.filter isVariableTerm)
  rw [demands_bind hTerms, hNoted, Settings.observableDemands]
  refine congrArg _ ?_
  obtain ⟨_, -, h⟩ := outcome_bind_eq_ok_iff.mp h
  obtain ⟨draft, hDraft, h⟩ := outcome_bind_eq_ok_iff.mp h
  obtain ⟨done, hDone, h⟩ := outcome_bind_eq_ok_iff.mp h
  obtain ⟨modifiers, hModifiers, -⟩ := outcome_bind_eq_ok_iff.mp h
  have hSpecs := demands_foldlM (g := s.specDemands o (o.key r.keys))
    (fun spec _ _ _ hSpec => applySpec_demands hSpec) hDone
  rw [demands_bind_of_nil hDraft (demands_lift _), demands_bind hDone, hSpecs]
  dsimp only
  rw [demands_bind_of_nil hModifiers (demands_lift _),
    demands_bind_of_nil (a := ()) rfl (leaves_log _ _).demands, demands_pure, List.append_nil]

-- ---------------------------------------------------------------------------
-- The whole request
-- ---------------------------------------------------------------------------

variable {r : Request} {subgraphs : List Subgraph}

/-- The observables demand what each of them does, in their order. -/
theorem observables_demands (h : (r.observables.mapM (s.subgraph r)).outcome = .ok subgraphs) :
    (r.observables.mapM (s.subgraph r)).demands =
      r.observables.flatMap (s.observableDemands r) :=
  demands_mapM (fun _ _ _ ho => subgraph_demands ho) h

/-- The variables that are selected are those that the request selects, each at its first place. -/
theorem selectedVars_eq (h : (r.observables.mapM (s.subgraph r)).outcome = .ok subgraphs) :
    selectedVars (r.observables.mapM (s.subgraph r)).notes = r.selection.eraseDups := by
  rw [selectedVars_eq_demands, observables_demands h, Request.selection, List.filterMap_flatMap]
  refine congrArg List.eraseDups (List.flatMap_congr fun o _ => ?_)
  rw [Settings.observableDemands, List.filterMap_append, List.filterMap_map,
    List.filterMap_flatMap, List.filterMap_eq_flatMap_toList (FilterSpec.selected? ·)]
  refine congrArg₂ _ List.filterMap_some (List.flatMap_congr fun spec _ => ?_)
  rw [Settings.specDemands, List.filterMap_append, List.filterMap_map]
  cases spec.selected? <;> simp [Note.selectedVar?, Function.comp_def]

/-- The functions that are noted are those that the request asks for, in the same order. -/
theorem calls_eq (category : FunctionCategory)
    (h : (r.observables.mapM (s.subgraph r)).outcome = .ok subgraphs) :
    calls category (r.observables.mapM (s.subgraph r)).notes = s.requested category r := by
  rw [calls_eq_demands, observables_demands h, Settings.requested, List.filterMap_flatMap,
    List.filter_flatMap]
  refine List.flatMap_congr fun o _ => congrArg _ ?_
  rw [Settings.observableDemands, List.filterMap_append, List.filterMap_map,
    List.filterMap_flatMap]
  have hTerms : (o.terms.filter isVariableTerm).filterMap (Note.call? ∘ Note.selected) = [] := by
    simp [Note.call?]
  rw [hTerms, List.nil_append]
  refine List.flatMap_congr fun spec _ => ?_
  rw [Settings.specDemands, List.filterMap_append, List.filterMap_map]
  cases spec.selected? <;> simp [Note.call?, Function.comp_def]

/-- What a clause asks for is asked for by the request. -/
theorem Settings.Asks.mem_requested {var : Json} {category : FunctionCategory}
    (h : s.Asks r category o spec var c) :
    o.call (o.key r.keys) category spec var c ∈ s.requested category r := by
  have hCall : s.call? o (o.key r.keys) spec c =
      some (o.call (o.key r.keys) category spec var c) := by
    rw [Settings.call?, if_neg (by simp [h.plain, Except.toOption]), h.bound,
      Clause.category?_eq_some_iff.mpr h.asks]
    rfl
  refine List.mem_flatMap.mpr ⟨o, h.listed, List.mem_filter.mpr ⟨?_, decide_eq_true rfl⟩⟩
  exact List.mem_flatMap.mpr ⟨spec, h.attached, List.mem_filterMap.mpr ⟨c, h.among, hCall⟩⟩

end

end SparqlSelect
