import SparqlSelect.Proofs.Compile.Confined
import SparqlSelect.Proofs.Compile.Prologue
import SparqlSelect.Proofs.Compile.Queries
import SparqlSelect.Proofs.Fragment.Alias

/-!
# Curly braces in a compiled text

A request cannot leave its place in the query: the curly braces of a compiled text are balanced once
its literals are masked, if the request is confined. The patterns are confined as they were written;
what is selected is a variable, or made of the name and the variable of a function; and a temporal
function is bound to an alias that was checked as a variable, so its name has no braces either.

The condition cannot be left out. A search by place does not check the variable of a spec by itself,
and in the brackets of a call anything may stand.

* `inject_confined` — what a call keeps.
* `compile_balanced` — the text of every confined request.
* `compile_unbalanced_variable` — a variable that closes the pattern.
-/

namespace SparqlSelect

open Pattern

-- ---------------------------------------------------------------------------
-- Modifiers and items
-- ---------------------------------------------------------------------------

/-- A variable has no braces. -/
theorem braceless_of_var {v : String} (h : Kind.acceptsAny [.var] v = true) : Braceless v :=
  braceless_of_matches (Kind.acceptsAny_var_iff.mp h) (by decide)

/-- What has the mark of a variable is selected as a variable. -/
theorem var_of_marked {v : String} (hMark : isVariableTerm v = true)
    (h : Kind.acceptsAny Kind.forSelect v = true) : Kind.acceptsAny [.var] v = true := by
  refine Kind.acceptsAny_var_iff.mpr ((Kind.acceptsAny_forSelect_iff.mp h).resolve_right ?_)
  rintro ⟨hAssignment, -⟩
  unfold isVariableTerm at hMark
  split at hMark
  · rename_i c rest hList
    rw [hList] at hAssignment
    exact forall_isMark (P := fun c => ¬ Matches Token.assignment (c :: rest))
      (not_matches_cons (by decide) rest) (not_matches_cons (by decide) rest) c hMark hAssignment
  · cases hMark

/-- A number is written without braces. -/
theorem braceless_natRepr (n : Nat) : Braceless n.repr := by
  intro c hc
  rw [Nat.toList_repr] at hc
  have hDigit := Nat.isDigit_of_mem_toDigits (by decide) (by decide) hc
  rw [Bool.eq_false_iff]
  rintro hBrace
  rcases Bool.or_eq_true_iff.mp hBrace with hBrace | hBrace
  · rw [beq_iff_eq.mp hBrace] at hDigit
    cases hDigit
  · rw [beq_iff_eq.mp hBrace] at hDigit
    cases hDigit

/-- So is one with a sign. -/
theorem braceless_intRepr (n : Int) : Braceless (toString n) := by
  cases n with
  | ofNat n => exact braceless_natRepr n
  | negSucc n => exact Braceless.append (by decide) (braceless_natRepr (n + 1))

/-- A sort key is a variable and a limit is a number. -/
theorem modifiers_braceless {sort : Option (String × Json)} {limit : Option Int}
    {modifiers : List Modifier} (h : modifiersOf sort limit = .ok modifiers) :
    ∀ m ∈ modifiers, Braceless m.text := by
  obtain ⟨order, hOrder, h⟩ := bind_eq_ok_iff.mp h
  cases h
  rw [List.forall_mem_append]
  refine ⟨?_, fun m hm => ?_⟩
  · -- the sort is a variable between a keyword and a bracket, the limit is digits
    cases sort with
    | none =>
      cases hOrder
      simp
    | some entry =>
      obtain ⟨key, direction⟩ := entry
      simp only [sortModifiers, sortModifier, map_eq_ok_iff, bind_eq_ok_iff,
        Kind.checkText_eq_ok_iff, Except.ok.injEq] at hOrder
      obtain ⟨_, ⟨_, ⟨rfl, hVar⟩, rfl⟩, rfl⟩ := hOrder
      rw [List.forall_mem_singleton]
      refine Braceless.append (by decide) (braceless_intercalate (by decide) ?_)
      rw [List.forall_mem_map, List.forall_mem_singleton]
      have hKeyword : Braceless (Direction.of direction).keyword := by
        cases Direction.of direction <;> decide
      exact ((hKeyword.append (by decide)).append (braceless_of_var hVar)).append (by decide)
  · cases limit with
    | none => cases hm
    | some n =>
      rw [List.mem_singleton.mp hm]
      exact Braceless.append (by decide) (braceless_intRepr n)

namespace FunctionCall

variable {c : FunctionCall}

/-- An alias is made of a function and a variable. -/
theorem braceless_resultVar (hFunction : Braceless c.function) (hVar : Braceless c.var) :
    Braceless c.resultVar := by
  have hNot {d : Char} (hd : Unicode.isUnreached d.toNat = true) (hMark : d ≠ '?')
      (hFunction : d ∉ c.function.toList) (hVar : d ∉ c.var.toList) : d ∉ c.resultVar.toList :=
    fun h => (mem_of_mem_resultVar hd hMark h).elim hFunction hVar
  obtain ⟨hOpen, hClose⟩ := braceless_iff.mp hFunction
  obtain ⟨hVarOpen, hVarClose⟩ := braceless_iff.mp hVar
  exact braceless_iff.mpr ⟨hNot (by decide) (by decide) hOpen hVarOpen,
    hNot (by decide) (by decide) hClose hVarClose⟩

/-- The braces of a function and its variable are found in the alias. -/
theorem braceless_text (h : Braceless c.resultVar) : Braceless c.text := by
  obtain ⟨hOpen, hClose⟩ := braceless_iff.mp h
  have hFixed {d : Char} (hd : d ∈ [' ', '(', '\x7b', '\x7d']) : Unicode.isFixed d = true :=
    Unicode.isFixed_of_isCaseless (Unicode.isCaseless_of_mem hd)
  have hFunction : Braceless c.function := braceless_iff.mpr
    ⟨fun hc => hOpen (mem_resultVar_of_mem_function (hFixed (by simp)) hc),
      fun hc => hClose (mem_resultVar_of_mem_function (hFixed (by simp)) hc)⟩
  have hVar : Braceless c.var := braceless_iff.mpr
    ⟨fun hc => hOpen (mem_resultVar_of_mem_var (hFixed (by simp)) rfl hc),
      fun hc => hClose (mem_resultVar_of_mem_var (hFixed (by simp)) rfl hc)⟩
  exact ((hFunction.append (by decide)).append hVar).append (by decide)

/-- The item of a call has no braces if its function and its variable have none. -/
theorem braceless_selectItem (hFunction : Braceless c.function) (hVar : Braceless c.var) :
    Braceless c.selectItem := by
  have hAlias := braceless_resultVar hFunction hVar
  have hOpen : Braceless "(" := by decide
  exact (((hOpen.append (braceless_text hAlias)).append (by decide)).append hAlias).append
    (by decide)

end FunctionCall

-- ---------------------------------------------------------------------------
-- One call
-- ---------------------------------------------------------------------------

/-- The fragments of a query fit, its pattern brings no braces, and neither do the items that it
selects. -/
structure SelectQuery.Confined (q : SelectQuery) : Prop where
  fits : q.body.Everywhere Element.Fits
  body : q.body.Contained
  items : ∀ item ∈ q.projection, Braceless item

section

variable {q q' : SelectQuery} {c : FunctionCall} {done : Bool}

/-- An item without braces may be selected. -/
theorem SelectQuery.Confined.project {v : String} (h : q.Confined) (hv : Braceless v) :
    (q.project v).Confined where
  fits := (body_project q v).symm ▸ h.fits
  body := (body_project q v).symm ▸ h.body
  items item hItem := by
    rcases mem_projection_project.mp hItem with hItem | rfl
    · exact h.items item hItem
    · exact hv

/-- A binding that fits and brings no braces may be put into the group of a key. -/
theorem SelectQuery.Confined.putBinding {key : String} {place : Place} {b : Binding}
    (h : q.Confined) (hFits : b.Fits) (hLine : (Element.bind b).Contained) :
    Confined { q with body := q.body.updateOrigin (some key) (·.putBinding place b) } where
  fits := h.fits.putBinding (fun _ => trivial) (fun _ => trivial) (fun _ => trivial) hFits
  body := {
    elements :=
      h.body.elements.putBinding (fun _ => trivial) (fun _ => trivial) (fun _ => trivial) hLine
    queries :=
      Group.queries_putBinding (fun _ _ hq => ⟨hq.selection, hq.modifiers⟩) h.body.queries }
  items := h.items

/-- The alias of a call that is injected was checked as a variable, so the call has no braces. -/
theorem inject_confined (h : q.Confined) (hInject : (q.inject c).outcome = .ok (q', done)) :
    q'.Confined := by
  obtain ⟨rfl, -⟩ | ⟨g, hFound, -, ⟨hAny, rfl⟩ | ⟨place, b, -, -, rfl, hFits, rfl⟩⟩ :=
    inject_eq_ok hInject
  · exact h
  · exact h.project (braceless_of_var (var_of_bound h.fits hFound hAny))
  · have hAlias : Braceless c.resultVar := braceless_of_var hFits.var
    have hLine : Braceless (Binding.text ⟨c.text, c.resultVar⟩) :=
      Braceless.append (Braceless.append (Braceless.append (Braceless.append (by decide)
        (FunctionCall.braceless_text hAlias)) (by decide)) hAlias) (by decide)
    exact (h.putBinding hFits hLine.contained).project hAlias

end

-- ---------------------------------------------------------------------------
-- Queries
-- ---------------------------------------------------------------------------

section

variable {r : Request} {subgraphs : List Subgraph} {modifiers : List Modifier}
  {aggregates : Option Aggregation}

/-- What the aggregates of a confined request select brings no braces. -/
theorem aggregates_braceless {groups : List Group} {selected : List FunctionCall}
    {a : Aggregation} (hConfined : r.Confined)
    (h : Aggregation.Computes (Settings.standard.aggregateCalls r) groups selected a) :
    a.query.HeadContained ∧ ∀ v ∈ a.aliases, Braceless v := by
  have hParts : ∀ c ∈ selected, Braceless c.function ∧ Braceless c.var := by
    intro c hc
    have hCall := (h.chosen.sound c hc).1
    refine ⟨hConfined.aggregates c hCall, ?_⟩
    obtain ⟨o, -, spec, hSpec, x, clause, hVar, -, -, rfl⟩ := exists_of_call hCall
    exact ((hConfined.specsOf hSpec).var x hVar).braceless
  rw [h.shape]
  refine ⟨headContained_of_braceless ?_ (by simp [Aggregation.ofBranches, SelectQuery.empty]), ?_⟩
  · -- the item of a call and its alias have the function and the variable in them, nothing else
    intro item hItem
    obtain ⟨c, hc, rfl⟩ := List.mem_map.mp hItem
    obtain ⟨hFunction, hVar⟩ := hParts c hc
    exact FunctionCall.braceless_selectItem hFunction hVar
  · intro v hv
    obtain ⟨c, hc, rfl⟩ := List.mem_map.mp hv
    obtain ⟨hFunction, hVar⟩ := hParts c hc
    exact FunctionCall.braceless_resultVar hFunction hVar

/-- Before any call is injected, the query of a confined request is confined. -/
theorem extendedQuery_confined (hConfined : r.Confined)
    (hSubs : List.Forall₂ (fun o sub => (Settings.standard.subgraph r o).outcome = .ok sub)
      r.observables subgraphs)
    (hNoted : ∀ v ∈ Traced.selectedVars (r.observables.mapM (Settings.standard.subgraph r)).notes,
      Kind.acceptsAny Kind.forSelect v = true)
    (hAggregates : (aggregation (aggregateGroups
      (r.observables.mapM (Settings.standard.subgraph r)).notes)).outcome = .ok aggregates) :
    (Settings.standard.extendedQuery subgraphs
      (r.observables.mapM (Settings.standard.subgraph r)).notes modifiers aggregates).Confined where
  fits := (extended_drafted hSubs hAggregates).mono fun _ => Element.IsDrafted.fits
  body := {
    elements := by
      refine (extendedQuery_everywhere (fun _ => trivial) fun _ => trivial).mpr
        ⟨fun sub hSub => ?_, fun a ha => ?_⟩
      · obtain ⟨o, ho, hOutcome⟩ := exists_of_forall₂_right hSubs hSub
        exact subgraph_contained hConfined ho hOutcome
      · obtain ⟨-, rfl⟩ | ⟨_, groups, selected, rfl, hComputes⟩ :=
          Aggregation.aggregation_computes hAggregates
        · cases ha
        · cases ha
          exact aggregates_contained hConfined hComputes
    queries := by
      refine extendedQuery_queries hSubs hAggregates (fun sub hSub => asBranch_queryIs ?_)
        fun a groups selected hComputes => (aggregates_braceless hConfined hComputes).1
      obtain ⟨o, -, ho⟩ := exists_of_forall₂_right hSubs hSub
      exact headContained_of_braceless (by simp [SelectQuery.empty])
        (modifiers_braceless (subgraph_drafted ho).2.2) }
  items item hItem := by
    -- an item is a selected variable or an alias of the aggregates
    rcases mem_projection_extendedQuery.mp hItem with hItem | ⟨a, rfl, hAlias⟩
    · obtain ⟨o, -, ⟨-, hMark⟩ | ⟨spec, hSpec, x, hVar, rfl⟩⟩ := exists_of_selectedVar hItem
      · exact braceless_of_var (var_of_marked hMark (hNoted item hItem))
      · exact ((hConfined.specsOf hSpec).var x hVar).braceless
    · obtain ⟨-, hNone⟩ | ⟨_, groups, selected, hSome, hComputes⟩ :=
        Aggregation.aggregation_computes hAggregates
      · cases hNone
      · cases hSome
        exact (aggregates_braceless hConfined hComputes).2 item hAlias

/-- The query of a confined request brings no braces. -/
theorem buildRequest_contained {q : SelectQuery} (hConfined : r.Confined)
    (h : (Settings.standard.buildRequest r).outcome = .ok q) :
    q.HeadContained ∧ q.body.Contained := by
  obtain ⟨subgraphs, hSubs, ⟨-, hr⟩ | ⟨-, hr⟩⟩ := buildRequest_eq_ok h
  · obtain ⟨modifiers, aggregates, done, hModifiers, hNoted, hAggregates, hDone, rfl⟩ :=
      observableQuery_eq_ok hr
    -- the bindings are written last: each of them keeps the rest confined
    obtain ⟨hKept, hSame⟩ := withTemporals_keeps
      (I := fun p => p.Confined ∧ p.modifiers = modifiers)
      (fun c _ p p' done hp hInject =>
        ⟨inject_confined hp.1 hInject, (inject_same hInject).2.trans hp.2⟩)
      ⟨extendedQuery_confined hConfined (subgraphs_ok hSubs) hNoted hAggregates,
        modifiers_extendedQuery ..⟩ hDone
    exact ⟨headContained_of_braceless hKept.items (hSame ▸ modifiers_braceless hModifiers),
      hKept.body⟩
  · obtain ⟨p, t, additions, -, -, -, hGrouped, hProjection, -, hModifiers⟩ :=
      locationQuery_eq_ok hr
    have hSensor : Braceless (bracketUrl p.sensor) :=
      braceless_of_matches (Kind.matches_of_subject hGrouped) (by decide)
    refine ⟨headContained_of_braceless ?_ ?_, locationQuery_contained hConfined hr,
      locationQuery_queries hr⟩
    · have hOpen : Braceless "(SAMPLE(" := by decide
      rw [hProjection, List.forall_mem_cons, List.forall_mem_singleton]
      exact ⟨(hOpen.append hSensor).append (by decide), by decide⟩
    · rw [hModifiers, List.forall_mem_singleton]
      refine Braceless.append (by decide) (braceless_intercalate (by decide) ?_)
      rw [List.forall_mem_cons, List.forall_mem_singleton]
      exact ⟨hSensor, by decide⟩

end

/-- The declarations of the standard prefixes have no braces. -/
theorem standardPrefixes_braceless :
    ∀ entry ∈ Settings.standardPrefixes, Braceless (declaration entry.1 entry.2) := by
  decide +kernel

/-- **A request cannot leave its place.** When a payload gives a confined request and compiles under
the standard settings, the curly braces of its text are balanced once the literals are masked. -/
theorem compile_balanced {payload : Json} {r : Request} {text : String}
    (hRead : Request.read payload = .ok r) (hConfined : r.Confined)
    (h : Settings.standard.compile payload = .ok text) :
    BracesBalanced (maskLiterals text.toList) := by
  obtain ⟨q, hq, hText⟩ := bind_eq_ok_iff.mp h
  obtain ⟨r', hRead', hr⟩ := build_eq_ok_iff.mp hq
  rw [hRead] at hRead'
  cases hRead'
  obtain ⟨hHead, hBody⟩ := buildRequest_contained hConfined hr
  refine balanced_of_text (raise_eq_ok_iff.mp hText) (fun entry hEntry => ?_) hHead hBody
  rw [build_prefixes hq] at hEntry
  exact (standardPrefixes_braceless entry hEntry).contained

/-- The names in the payload are plain, so its text is balanced. -/
theorem compile_balanced_station :
    ∃ r text, Request.read stationPayload = .ok r ∧ r.Confined ∧
      Settings.standard.compile stationPayload = .ok text ∧
      BracesBalanced (maskLiterals text.toList) := by
  obtain ⟨text, hText⟩ := exists_of_isOk (show
    (Settings.standard.compile stationPayload).isOk = true by decide +kernel)
  obtain ⟨r, hRead, hConfined⟩ : ∃ r, Request.read stationPayload = .ok r ∧ r.Confined := by
    obtain ⟨r, hr, hConfined⟩ := Option.map_eq_some_iff.mp (show
      (Request.read stationPayload).toOption.map (fun r => decide r.Confined) = some true by
        decide +kernel)
    exact ⟨r, toOption_eq_some_iff.mp hr, of_decide_eq_true hConfined⟩
  exact ⟨r, text, hRead, hConfined, hText, compile_balanced hRead hConfined hText⟩

/-- A search by place with a variable that brings a brace. -/
def bracePayload : Json := .obj [
  ("filters", .obj [("?s", .arr [
    .obj [("uri", .str "x:label"), ("predicateName", .str "?x \x7d"),
      ("filters", .arr [clauseOf "contain" [("value", .str "v")]])]])]),
  ("sensorPattern", .obj [("s", .str "?s"), ("p", .str "x:p"), ("o", .str "?o"),
    ("sensorKey", .str "s")])]

/-- A variable that closes the pattern: it is accepted in the brackets of a call, and more braces
are closed than were opened. -/
theorem compile_unbalanced_variable :
    ∃ text, Settings.standard.compile bracePayload = .ok text ∧
      ¬ BracesBalanced (maskLiterals text.toList) := by
  obtain ⟨text, hText⟩ := exists_of_isOk (show
    (Settings.standard.compile bracePayload).isOk = true by decide +kernel)
  refine ⟨text, hText, fun hBalanced => ?_⟩
  obtain ⟨q, hq, hWritten⟩ := bind_eq_ok_iff.mp hText
  obtain ⟨used, hUsed, hMasked⟩ := masked_text (raise_eq_ok_iff.mp hWritten)
  rw [build_prefixes hq] at hUsed
  -- of all lines only those with braces have to be looked at
  have hLines : ((q.lines 0).filter fun l => l.toList.any isBrace) = ["WHERE \x7b",
      "  OPTIONAL \x7b", "  \x7d", "  FILTER(regex(str(?x \x7d), \"v\", \"i\"))", "\x7d"] := by
    have hAll : (Settings.standard.build bracePayload).outcome.toOption.map (fun q =>
        (q.lines 0).filter fun l => l.toList.any isBrace) = some ["WHERE \x7b",
          "  OPTIONAL \x7b", "  \x7d", "  FILTER(regex(str(?x \x7d), \"v\", \"i\"))", "\x7d"] := by
      decide +kernel
    rw [hq] at hAll
    exact Option.some.inj hAll
  have hNone : (used.map fun entry => declaration entry.1 entry.2).filter
      (fun l => l.toList.any isBrace) = [] := by
    refine List.filter_eq_nil_iff.mpr (List.forall_mem_map.mpr fun entry hEntry => ?_)
    simpa [Braceless] using standardPrefixes_braceless entry (hUsed hEntry)
  have hFound : (maskedLines ["WHERE \x7b", "  OPTIONAL \x7b", "  \x7d",
      "  FILTER(regex(str(?x \x7d), \"v\", \"i\"))", "\x7d"]).filter isBrace =
      ['\x7b', '\x7b', '\x7d', '\x7d', '\x7d'] := by
    decide +kernel
  have hBraces := congrArg (List.filter isBrace) hMasked
  rw [filter_maskedLines, List.filter_append, List.filter_append, hNone, hLines, List.nil_append,
    hFound, List.filter_cons_of_neg (by decide), List.filter_nil, List.append_nil] at hBraces
  have hTotal : ((maskLiterals text.toList).filter isBrace).count '\x7d' =
      ((maskLiterals text.toList).filter isBrace).count '\x7b' := by
    rw [List.count_filter rfl, List.count_filter rfl, hBalanced.total]
  rw [hBraces] at hTotal
  revert hTotal
  decide

end SparqlSelect
