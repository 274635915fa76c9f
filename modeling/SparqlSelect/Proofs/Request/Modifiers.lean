import SparqlSelect.Proofs.Request.Members
import SparqlSelect.Proofs.Traced.Success
import SparqlSelect.Compile.Subgraph

/-!
# The modifiers of an observable

A modifier of an observable counts only if it is enabled and has a value. When a request has been
read, the observables are the items of its list in order, and an observable has a limit or a sort
key exactly if that modifier of its item is enabled.

* `Request.read_observables`, `Request.observables_ne_nil` — the items and the observables.
* `Observable.read_modifiers` — an item and its observable.
-/

namespace SparqlSelect

-- ---------------------------------------------------------------------------
-- Values that are not missing have a text
-- ---------------------------------------------------------------------------

namespace Binary64

theorem placePoint_ne_nil (digits : List Char) (point : Int) : placePoint digits point ≠ [] := by
  unfold placePoint
  split
  · split <;> simp
  · simp

theorem text_ne_empty (x : Binary64) : x.text ≠ "" := by
  cases x with
  | nan => decide
  | infinite s => cases s <;> decide
  | finite s u =>
    unfold text
    dsimp only
    split
    · simp
    · simp [placePoint_ne_nil]

end Binary64

/-- A value that is not missing is shown as some text. -/
theorem Json.display_ne_empty {value : Json} (h : value.isMissing = false) :
    value.display ≠ "" := by
  cases value with
  | null => simp [isMissing] at h
  | bool b => cases b <;> decide
  | int n =>
    rw [display, literal, Int.toString_eq_repr, Int.repr_eq_if]
    · split <;> simp
    · simp
  | float x => exact Binary64.text_ne_empty x
  | str s => simpa [isMissing, display] using h
  | arr items => simp [display, literal]
  | obj members => simp [display, literal]

-- ---------------------------------------------------------------------------
-- Observables and their items
-- ---------------------------------------------------------------------------

/-- The value of a modifier that an item of the observables enables. -/
def enabledModifier? (item : Json) (name : String) : Option Json :=
  match item with
  | .obj members =>
    match Json.member "modifiers" members with
    | .obj modifiers => enabledValue? (Json.member name modifiers)
    | _ => none
  | _ => none

theorem enabledValue?_not_missing {modifier value : Json}
    (h : enabledValue? modifier = some value) : value.isMissing = false := by
  unfold enabledValue? at h
  split at h
  · dsimp only at h
    split at h
    · rename_i hBoth
      cases h
      simpa using (Bool.and_eq_true_iff.mp hBoth).2
    · cases h
  · cases h

/-- A limit that was read from a value that is there is a limit. -/
theorem readLimit_eq_ok {value : Json} {path : String} {limit : Option Int}
    (h : readLimit value path = .ok limit) : limit.isSome = !value.isMissing := by
  unfold readLimit at h
  split at h
  · rename_i hMissing
    cases h
    simp [hMissing]
  · rename_i hThere
    split at h
    · split at h
      · cases h
      · cases h
        simpa using hThere
    · cases h
    · cases h

/-- A limit is read exactly if it is enabled. -/
theorem readEnabledLimit_eq_ok {modifiers : List (String × Json)} {path : String}
    {limit : Option Int} (h : readEnabledLimit modifiers path = .ok limit) :
    limit.isSome = (enabledValue? (Json.member "limit" modifiers)).isSome := by
  unfold readEnabledLimit at h
  split at h
  · rename_i value hValue
    rw [readLimit_eq_ok h, hValue, enabledValue?_not_missing hValue]
    rfl
  · rename_i hNone
    cases h
    rw [hNone]
    rfl

/-- The modifiers of an item are those that are looked up in it. -/
theorem enabledModifier?_eq {item given : Json} {modifiers : List (String × Json)}
    (hGiven : item.get "modifiers" = .ok given)
    (hModifiers : (orElseEmpty given (.obj [])).toMembers = .ok modifiers) (name : String) :
    enabledModifier? item name = enabledValue? (Json.member name modifiers) := by
  obtain ⟨members, hMembers, rfl⟩ := map_eq_ok_iff.mp hGiven
  have hItem : item = .obj members := Json.toMembers_eq_ok_iff.mp hMembers
  simp only [enabledModifier?, hItem]
  rcases Json.eq_obj_of_orElseEmpty hModifiers with hObject | ⟨rfl, hNone⟩
  · rw [hObject]
  · split
    · rename_i others hOthers
      exact absurd hOthers (hNone others)
    · rfl

/-- The modifiers of an observable are given exactly as far as those of its item are enabled. -/
theorem Observable.read_modifiers {item : Json} {path : String} {o : Observable}
    (h : Observable.read item path = .ok o) :
    o.limit.isSome = (enabledModifier? item "limit").isSome ∧
      o.sort?.isSome = (enabledModifier? item "orderBy").isSome := by
  simp only [Observable.read, bind_eq_ok_iff, raise_eq_ok_iff] at h
  obtain ⟨subject, -, predicate, -, object, -, given, hGiven, modifiers, hModifiers, limit, hLimit,
    h⟩ := h
  cases h
  rw [enabledModifier?_eq hGiven hModifiers, enabledModifier?_eq hGiven hModifiers]
  refine ⟨readEnabledLimit_eq_ok hLimit, ?_⟩
  unfold Observable.sort?
  cases hKey : enabledValue? (Json.member "orderBy" modifiers) with
  | none => rfl
  | some value =>
    have hShown := Json.display_ne_empty (enabledValue?_not_missing hKey)
    simp [hShown]

/-- The items of a list are read one by one. -/
theorem readItems_eq_ok {α : Type} {read : Json → String → Except Failure α} {path : String}
    {items : List Json} {xs : List α} (h : readItems read path items = .ok xs) :
    List.Forall₂ (fun item x => ∃ path, read item path = .ok x) items xs := by
  have hEach := mapM_eq_ok_iff.mp h
  rw [← List.zipIdx_map_fst 0 items, List.forall₂_map_left_iff]
  exact hEach.imp fun item x hItem => ⟨itemPath path item.2, hItem⟩

/-- The observables of a request are the items of its list in order. -/
theorem Request.read_observables {payload : Json} {items : List Json} {r : Request}
    (hItems : payload.get "observables" = .ok (.arr items)) (h : Request.read payload = .ok r) :
    List.Forall₂ (fun item o => ∃ path, Observable.read item path = .ok o) items
      r.observables := by
  obtain ⟨members, hMembers, hObservables⟩ := map_eq_ok_iff.mp hItems
  rw [Json.toMembers_eq_ok_iff.mp hMembers] at h
  simp only [Request.read, bind_eq_ok_iff, raise_eq_ok_iff] at h
  obtain ⟨entries, -, given, hGiven, observables, hRead, keys, -, filters, -, limit, -, h⟩ := h
  cases h
  -- a list that is missing is read like an empty one
  have hSame : given = items := by
    rw [hObservables] at hGiven
    unfold orElseEmpty at hGiven
    split at hGiven
    · cases hGiven
      rfl
    · rename_i hUnset
      cases hGiven
      have hNil : items = [] := by simpa [Json.isSet] using hUnset
      exact hNil.symm
  rw [← hSame]
  exact readItems_eq_ok hRead

/-- A payload whose observables count as given is rejected or lists some. -/
theorem Request.observables_ne_nil {payload : Json} {r : Request}
    (hGiven : (payload.atPath ["observables"]).isSet = true) (h : Request.read payload = .ok r) :
    r.observables ≠ [] := by
  cases payload with
  | obj members =>
    replace hGiven : (Json.member "observables" members).isSet = true := hGiven
    simp only [Request.read, bind_eq_ok_iff, raise_eq_ok_iff] at h
    obtain ⟨entries, -, items, hItems, observables, hRead, keys, -, filters, -, limit, -, h⟩ := h
    cases h
    rw [orElseEmpty, if_pos hGiven] at hItems
    rintro rfl
    exact Json.ne_nil_of_toItems hGiven hItems
      (List.forall₂_nil_right_iff.mp (readItems_eq_ok hRead))
  | _ => cases hGiven

end SparqlSelect
