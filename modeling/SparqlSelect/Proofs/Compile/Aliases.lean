import SparqlSelect.Proofs.Compile.AggregateGroups

/-!
# The aliases of the aggregates

A sub-query selects each item once, but an alias is less than its item: it leaves out the marks of
the variable and changes the case of the function and of the first letter of the variable. So the
aliases are told apart exactly if different items that are asked for have different aliases, and
that two items have one alias can happen: `?depth` and `$depth` are one variable in two spellings,
and the aliases of their averages are the same text.

Under the usual names it cannot happen. There a function has no small letter and a variable starts
with one, so in an alias the first capital after the first letter is where the variable starts, and
both names can be read back.

* `Gathers.nodup_aliases_iff` — when no alias is assigned twice.
* `FunctionCall.IsConventional`, `FunctionCall.eq_of_resultVar` — the usual names.
* `aggregation_aliases` — the items and the aliases of a sub-query.
-/

namespace SparqlSelect

-- ---------------------------------------------------------------------------
-- The usual names
-- ---------------------------------------------------------------------------

/-- Whether a character can stand in the usual name of a function. -/
def isFunctionChar (c : Char) : Bool := c.isUpper || c.isDigit || c == '_'

/-- A function is named by capitals, digits and low lines, starting with a capital, and a variable
by a question mark and a small letter with anything behind it. -/
structure FunctionCall.IsConventional (c : FunctionCall) : Prop where
  function : ∃ first rest, c.function.toList = first :: rest ∧ first.isUpper = true ∧
    ∀ d ∈ rest, isFunctionChar d = true
  var : ∃ first rest, c.var.toList = '?' :: first :: rest ∧ first.isLower = true

section

variable {c d : Char}

theorem toNat_lt_of_isUpper (h : c.isUpper = true) : c.toNat < 128 := by
  have hRange : 'A'.val ≤ c.val ∧ c.val ≤ 'Z'.val := of_decide_eq_true h
  exact Nat.lt_of_le_of_lt (UInt32.le_iff_toNat_le.mp hRange.2) (by decide)

theorem toNat_lt_of_isLower (h : c.isLower = true) : c.toNat < 128 := by
  have hLast : c.val ≤ 'z'.val := of_decide_eq_true (Bool.and_eq_true_iff.mp h).2
  exact Nat.lt_of_le_of_lt (UInt32.le_iff_toNat_le.mp hLast) (by decide)

theorem toNat_lt_of_isDigit (h : c.isDigit = true) : c.toNat < 128 := by
  have hLast : c.val ≤ '9'.val := of_decide_eq_true (Bool.and_eq_true_iff.mp h).2
  exact Nat.lt_of_le_of_lt (UInt32.le_iff_toNat_le.mp hLast) (by decide)

theorem toNat_lt_of_isFunctionChar (h : isFunctionChar c = true) : c.toNat < 128 := by
  simp only [isFunctionChar, Bool.or_eq_true, beq_iff_eq] at h
  obtain (hUpper | hDigit) | rfl := h
  · exact toNat_lt_of_isUpper hUpper
  · exact toNat_lt_of_isDigit hDigit
  · decide

/-- What holds of the first 128 characters. -/
theorem forall_ascii {P : Char → Prop} (h : ∀ n : Fin 128, P (Char.ofNat n)) (hc : c.toNat < 128) :
    P c := by
  have hChecked := h ⟨c.toNat, hc⟩
  rwa [Char.ofNat_toNat] at hChecked

/-- A character of a function's name in lower case: no capital, and known from it. -/
theorem toLower_of_isFunctionChar (h : isFunctionChar c = true) :
    c.toLower.toNat < 128 ∧ c.toLower.isUpper = false ∧ c.toLower.toLower = c.toLower ∧
      c.toLower.toUpper = c :=
  forall_ascii (P := fun c => isFunctionChar c = true → c.toLower.toNat < 128 ∧
    c.toLower.isUpper = false ∧ c.toLower.toLower = c.toLower ∧ c.toLower.toUpper = c)
    (by decide +kernel) (toNat_lt_of_isFunctionChar h) h

/-- A small letter in upper case: a capital, and known from it. -/
theorem toUpper_of_isLower (h : c.isLower = true) :
    c.toUpper.isUpper = true ∧ c.toUpper.toLower = c ∧ isMark c = false :=
  forall_ascii (P := fun c => c.isLower = true → c.toUpper.isUpper = true ∧
    c.toUpper.toLower = c ∧ isMark c = false) (by decide +kernel) (toNat_lt_of_isLower h) h

/-- What stands before the first capital, and what starts with it. -/
theorem append_capital_inj {s s' t t' : List Char} (hs : ∀ e ∈ s, e.isUpper = false)
    (hs' : ∀ e ∈ s', e.isUpper = false) (hc : c.isUpper = true) (hd : d.isUpper = true)
    (h : s ++ c :: t = s' ++ d :: t') : s = s' ∧ c :: t = d :: t' := by
  rcases List.append_eq_append_iff.mp h with ⟨u, rfl, hu⟩ | ⟨u, rfl, hu⟩
  · cases u with
    | nil => exact ⟨(List.append_nil s).symm, hu⟩
    | cons e u =>
      -- the capital would stand in the other text before its first one
      have hCapital := hs' c (by simp [(List.cons.inj hu).1])
      rw [hc] at hCapital
      cases hCapital
  · cases u with
    | nil => exact ⟨List.append_nil s', hu.symm⟩
    | cons e u =>
      have hCapital := hs d (by simp [(List.cons.inj hu).1])
      rw [hd] at hCapital
      cases hCapital

end

namespace FunctionCall

variable {c d : FunctionCall}

/-- The alias of usual names: the function with one capital, and the variable with a capital. -/
theorem IsConventional.toList_resultVar {first v : Char} {rest vs : List Char}
    (hFunction : c.function.toList = first :: rest) (hFirst : first.isUpper = true)
    (hRest : ∀ e ∈ rest, isFunctionChar e = true) (hVar : c.var.toList = '?' :: v :: vs)
    (hLower : v.isLower = true) :
    c.resultVar.toList = '?' :: first :: (rest.map Char.toLower ++ v.toUpper :: vs) := by
  -- the function's name is ASCII, so its cases are those of its letters
  obtain ⟨hBound, -, -, hBack⟩ :=
    toLower_of_isFunctionChar (show isFunctionChar first = true by simp [isFunctionChar, hFirst])
  have hAll : ∀ e ∈ first :: rest, e.toNat < 128 := List.forall_mem_cons.mpr
    ⟨toNat_lt_of_isFunctionChar (by simp [isFunctionChar, hFirst]),
      fun e he => toNat_lt_of_isFunctionChar (hRest e he)⟩
  have hName : (capitalize (lowerCase c.function)).toList = first :: rest.map Char.toLower := by
    rw [capitalize_lowerCase_of_ascii hFunction hAll hBound
      fun e he => (toLower_of_isFunctionChar (hRest e he)).1, hBack]
    exact congrArg (first :: ·) (List.map_congr_left fun e he =>
      (toLower_of_isFunctionChar (hRest e he)).2.2.1)
  have hBare : (bareName c.var).toList = v :: vs := by
    rw [toList_bareName, hVar, List.dropWhile_cons_of_pos (by decide),
      List.dropWhile_cons_of_neg (by simp [(toUpper_of_isLower hLower).2.2])]
  rw [FunctionCall.toList_resultVar, hName, toList_upperFirst hBare,
    (Unicode.case_of_ascii (toNat_lt_of_isLower hLower)).2.1]
  rfl

/-- Under the usual names an alias tells the function and the variable. -/
theorem eq_of_resultVar (hc : c.IsConventional) (hd : d.IsConventional)
    (h : c.resultVar = d.resultVar) : c.function = d.function ∧ c.var = d.var := by
  obtain ⟨⟨first, rest, hFunction, hFirst, hRest⟩, v, vs, hVar, hLower⟩ := hc
  obtain ⟨⟨first', rest', hFunction', hFirst', hRest'⟩, v', vs', hVar', hLower'⟩ := hd
  have hList := congrArg String.toList h
  rw [IsConventional.toList_resultVar hFunction hFirst hRest hVar hLower,
    IsConventional.toList_resultVar hFunction' hFirst' hRest' hVar' hLower'] at hList
  obtain ⟨-, hNames⟩ := List.cons.inj hList
  obtain ⟨rfl, hTail⟩ := List.cons.inj hNames
  -- the function ends where the first capital letter behind it stands
  obtain ⟨hSmall, hCapital⟩ := append_capital_inj
    (List.forall_mem_map.mpr fun e he => (toLower_of_isFunctionChar (hRest e he)).2.1)
    (List.forall_mem_map.mpr fun e he => (toLower_of_isFunctionChar (hRest' e he)).2.1)
    (toUpper_of_isLower hLower).1 (toUpper_of_isLower hLower').1 hTail
  -- nothing is lost by the lower case: the characters of a function's name have upper case
  have hBack (s : List Char) (hs : ∀ e ∈ s, isFunctionChar e = true) :
      (s.map Char.toLower).map Char.toUpper = s := by
    rw [List.map_map]
    exact (List.map_congr_left fun e he => (toLower_of_isFunctionChar (hs e he)).2.2.2).trans
      (List.map_id s)
  obtain ⟨hLetter, rfl⟩ := List.cons.inj hCapital
  have hSame : v = v' := by
    rw [← (toUpper_of_isLower hLower).2.1, hLetter, (toUpper_of_isLower hLower').2.1]
  refine ⟨String.toList_inj.mp ?_, String.toList_inj.mp ?_⟩
  · rw [hFunction, hFunction', ← hBack rest hRest, hSmall, hBack rest' hRest']
  · rw [hVar, hVar', hSame]

end FunctionCall

namespace Aggregation

-- ---------------------------------------------------------------------------
-- Items and aliases
-- ---------------------------------------------------------------------------

section

variable {groups : List (String × List FunctionCall)} {a : Aggregation} {branches : List Group}
  {selected : List FunctionCall}

/-- No alias is assigned twice exactly if different items that are asked for have different
aliases. -/
theorem Gathers.nodup_aliases_iff (h : Gathers groups branches selected a) :
    a.aliases.Nodup ↔ ∀ c ∈ groups.flatMap (·.2), ∀ d ∈ groups.flatMap (·.2),
      c.resultVar = d.resultVar → c.selectItem = d.selectItem := by
  have hAliases : a.aliases = selected.map (·.resultVar) := by
    rw [h.shape]
    rfl
  have hItems : (selected.map (·.selectItem)).Nodup := by
    rw [selectItem_of_foldlM h.selects]
    exact nodup_eraseDups _
  have hFor := selectedFor_of_foldlM h.selects
  rw [hAliases]
  constructor
  · intro hNodup c hc d hd hSame
    -- the calls that were selected for these two have the same alias, so they are one call
    obtain ⟨c', hc', hItem⟩ := hFor.complete c hc
    obtain ⟨d', hd', hItem'⟩ := hFor.complete d hd
    have hAlias : c'.resultVar = d'.resultVar := by
      rw [FunctionCall.resultVar_eq_of_selectItem_eq hItem, hSame,
        FunctionCall.resultVar_eq_of_selectItem_eq hItem']
    rw [← hItem, ← hItem', List.inj_on_of_nodup_map hNodup hc' hd' hAlias]
  · intro hTold
    refine hItems.of_map.map_on fun c hc d hd hSame => ?_
    exact List.inj_on_of_nodup_map hItems hc hd
      (hTold c (hFor.sound c hc).1 d (hFor.sound d hd).1 hSame)

/-- **The aliases of the aggregates.** The items and the aliases of a sub-query are those of the
same calls in the same order, and no item is there twice. No alias is assigned twice exactly if
different items that are asked for have different aliases, which is so under the usual names. -/
theorem aggregation_aliases (h : (aggregation groups).outcome = .ok (some a)) :
    (∃ selected : List FunctionCall, (∀ c ∈ selected, c ∈ groups.flatMap (·.2)) ∧
      a.query.projection = selected.map (·.selectItem) ∧
      a.aliases = selected.map (·.resultVar)) ∧
    a.query.projection = ((groups.flatMap (·.2)).map (·.selectItem)).eraseDups ∧
    (a.aliases.Nodup ↔ ∀ c ∈ groups.flatMap (·.2), ∀ d ∈ groups.flatMap (·.2),
      c.resultVar = d.resultVar → c.selectItem = d.selectItem) ∧
    ((∀ c ∈ groups.flatMap (·.2), c.IsConventional) → a.aliases.Nodup) := by
  obtain ⟨branches, selected, hGathers⟩ := aggregation_eq_some_iff.mp h
  have hFor := selectedFor_of_foldlM hGathers.selects
  refine ⟨⟨selected, fun c hc => (hFor.sound c hc).1, ?_, ?_⟩, hGathers.projection,
    hGathers.nodup_aliases_iff, fun hUsual => ?_⟩
  · rw [hGathers.shape]
    rfl
  · rw [hGathers.shape]
    rfl
  · -- in conventional names the alias tells the function and the variable, hence the item
    refine hGathers.nodup_aliases_iff.mpr fun c hc d hd hSame => ?_
    obtain ⟨hFunction, hVar⟩ := FunctionCall.eq_of_resultVar (hUsual c hc) (hUsual d hd) hSame
    rw [FunctionCall.selectItem, FunctionCall.selectItem, FunctionCall.text, FunctionCall.text,
      hFunction, hVar, hSame]

/-- Three usual calls, one of them asked for twice, have three aliases. -/
theorem aggregation_aliases_station :
    ∃ a, (aggregation stationGroups).outcome = .ok (some a) ∧ a.aliases.Nodup ∧
      a.aliases.length = 3 := by
  have hRun : (aggregation stationGroups).outcome.toOption.join.map (·.aliases.length) =
      some 3 := by decide +kernel
  obtain ⟨a, hSome, hLength⟩ := Option.map_eq_some_iff.mp hRun
  have hOutcome := join_toOption_eq_some_iff.mp hSome
  have hCall (function var uri key : String)
      (hFunction : ∃ first rest, function.toList = first :: rest ∧ first.isUpper = true ∧
        rest.all isFunctionChar = true)
      (hVar : ∃ first rest, var.toList = '?' :: first :: rest ∧ first.isLower = true) :
      (stationCall function var uri key).IsConventional := by
    obtain ⟨first, rest, hText, hFirst, hRest⟩ := hFunction
    exact ⟨⟨first, rest, hText, hFirst, List.all_eq_true.mp hRest⟩, hVar⟩
  have hUsual : ∀ c ∈ stationGroups.flatMap (·.2), c.IsConventional := by
    have hDepth : ∃ first rest, "?depth".toList = '?' :: first :: rest ∧ first.isLower = true :=
      ⟨_, _, rfl, by decide⟩
    have hAvg := hCall "AVG" "?depth" "x:depth" "x:p" ⟨_, _, rfl, by decide, by decide⟩ hDepth
    have hMax := hCall "MAX" "?depth" "x:depth" "x:p" ⟨_, _, rfl, by decide, by decide⟩ hDepth
    have hMin := hCall "MIN" "?ph" "x:ph" "x:q" ⟨_, _, rfl, by decide, by decide⟩
      ⟨_, _, rfl, by decide⟩
    simp only [stationGroups, List.flatMap_cons, List.flatMap_nil, List.nil_append,
      List.append_nil, List.forall_mem_append, List.forall_mem_cons]
    exact ⟨⟨hAvg, hMax, hAvg, List.forall_mem_nil _⟩, hMin, List.forall_mem_nil _⟩
  exact ⟨a, hOutcome, (aggregation_aliases hOutcome).2.2.2 hUsual, hLength⟩

/-- The average of one variable in two spellings is selected twice, with one alias. -/
theorem alias_assigned_twice :
    ∃ a, (aggregation [("x:p", [stationCall "AVG" "?depth" "x:depth" "x:p",
        stationCall "AVG" "$depth" "x:depth" "x:p"])]).outcome = .ok (some a) ∧
      a.query.projection = ["(AVG(?depth) AS ?AvgDepth)", "(AVG($depth) AS ?AvgDepth)"] ∧
      ¬ a.aliases.Nodup := by
  have hRun : (aggregation [("x:p", [stationCall "AVG" "?depth" "x:depth" "x:p",
        stationCall "AVG" "$depth" "x:depth" "x:p"])]).outcome.toOption.join.map
        (fun a => (a.query.projection, a.aliases)) =
      some (["(AVG(?depth) AS ?AvgDepth)", "(AVG($depth) AS ?AvgDepth)"],
        ["?AvgDepth", "?AvgDepth"]) := by decide +kernel
  obtain ⟨a, hSome, hBoth⟩ := Option.map_eq_some_iff.mp hRun
  obtain ⟨hItems, hAliases⟩ := Prod.mk.inj hBoth
  exact ⟨a, join_toOption_eq_some_iff.mp hSome, hItems, by rw [hAliases]; decide⟩

end

end Aggregation

end SparqlSelect
