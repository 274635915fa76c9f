import SparqlSelect.Proofs.Number.Text
import SparqlSelect.Proofs.Pattern.Longest
import SparqlSelect.Proofs.Request.Quoting
import SparqlSelect.Proofs.Traced.Success
import SparqlSelect.Request.Reader

/-!
# Where a field is missing

A request is read once, in a fixed order, so the field that is reported as missing is the first that
is. Its path is put together from the outside in: the name of the list or the key of the entry, the
place of the item, the name of the field. The path therefore tells what has been read before: all
that comes earlier on each level.

Different offences have different paths. A number is followed by a bracket, a name in quotes shows
where it ends, and what is no object at all is reported by a path that ends in a bracket.

* `AllRead` — items that are read, each with its path.
* `readItems_eq_error` — the first item of a list that is not read.
* `NeverMissing` — parts that report nothing as missing.
* `Observable.read_missing`, `readSpecs_missing` — what is missing in an observable or among the
  specs of a key, and on which path.
* `itemPath_append_inj`, `specsPath_append_inj` — what a path tells.
* `Request.read_missing`, `Request.missing_paths_faithful` — what is missing in a request.
-/

namespace SparqlSelect

open Json Pattern

-- ---------------------------------------------------------------------------
-- The first item that is not read
-- ---------------------------------------------------------------------------

section

variable {α : Type} {read : Json → String → Except Failure α} {path : String} {items : List Json}

/-- Every item is read with its path. -/
def AllRead (read : Json → String → Except Failure α) (path : String) (items : List Json) : Prop :=
  ∀ i item, items[i]? = some item → ∃ a, read item (itemPath path i) = .ok a

/-- A list that is read has all of its items read. -/
theorem allRead_of_readItems {xs : List α} (h : readItems read path items = .ok xs) :
    AllRead read path items := by
  intro i item hItem
  have hMem : (item, i) ∈ items.zipIdx := List.mem_zipIdx_iff_getElem?.mpr hItem
  obtain ⟨a, -, hRead⟩ := exists_of_forall₂_left (mapM_eq_ok_iff.mp h) hMem
  exact ⟨a, hRead⟩

/-- A list is not read because of the first of its items that is not. -/
theorem readItems_eq_error {f : Failure} (h : readItems read path items = .error f) :
    ∃ i item, items[i]? = some item ∧ AllRead read path (items.take i) ∧
      read item (itemPath path i) = .error f := by
  obtain ⟨before, ⟨item, i⟩, after, hSplit, hBefore, hItem⟩ := mapM_eq_error_iff.mp h
  -- the index that is read with an item is the place at which it stands
  have hPlace : items.zipIdx[before.length]? = some (item, i) := by
    rw [hSplit]
    simp
  obtain ⟨hHere, hIndex⟩ : items[before.length]? = some item ∧ before.length = i := by
    simpa [List.getElem?_zipIdx] using hPlace
  subst hIndex
  refine ⟨before.length, item, hHere, ?_, hItem⟩
  intro j earlier hEarlier
  rw [List.getElem?_take] at hEarlier
  split at hEarlier
  · rename_i hj
    have hIndexed : items.zipIdx[j]? = some (earlier, j) := by
      rw [List.getElem?_zipIdx, hEarlier]
      simp
    rw [hSplit, List.getElem?_append_left hj] at hIndexed
    exact hBefore (earlier, j) (List.mem_of_getElem? hIndexed)
  · cases hEarlier

end

-- ---------------------------------------------------------------------------
-- What is never missing
-- ---------------------------------------------------------------------------

/-- A computation that may fail, but reports nothing as missing. -/
def NeverMissing {α : Type} (x : Except Failure α) : Prop :=
  ∀ missing absence, x ≠ .error (.missingField missing absence)

/-- What is missing in a sequence is missing after a part that reports nothing as missing. -/
theorem NeverMissing.after {α β : Type} {x : Except Failure α} {f : α → Except Failure β}
    {missing : String} {absence : Absence} (hx : NeverMissing x)
    (h : x >>= f = .error (.missingField missing absence)) :
    ∃ a, x = .ok a ∧ f a = .error (.missingField missing absence) := by
  rcases bind_eq_error_iff.mp h with hFirst | hRest
  · exact absurd hFirst (hx missing absence)
  · exact hRest

/-- A fault is no missing field. -/
theorem neverMissing_raise {α : Type} (r : Except Fault α) : NeverMissing (Fault.raise r) := by
  intro missing absence h
  obtain ⟨fault, -, hFault⟩ := raise_eq_error_iff.mp h
  cases hFault

/-- A limit may be left out, so it is never reported to be missing. -/
theorem neverMissing_readLimit (value : Json) (path : String) :
    NeverMissing (readLimit value path) := by
  intro missing absence
  unfold readLimit
  split
  · simp
  split
  · split
    · simp
    · simp
  · simp
  · simp

/-- So may the limit of an observable, in any form of its modifiers. -/
theorem neverMissing_readEnabledLimit (modifiers : List (String × Json)) (path : String) :
    NeverMissing (readEnabledLimit modifiers path) := by
  unfold readEnabledLimit
  split
  · exact neverMissing_readLimit _ _
  · intro missing absence h
    cases h

/-- A measure may be left out as well. -/
theorem neverMissing_readMeasure (value : Json) (path : String) :
    NeverMissing (readMeasure value path) := by
  intro missing absence
  unfold readMeasure
  split
  · simp
  split
  · simp
  · rw [if_neg Bool.false_ne_true]
    split
    · simp
    · simp
    · simp

-- ---------------------------------------------------------------------------
-- Observables
-- ---------------------------------------------------------------------------

/-- Whether a value is an object that holds something else than `null` under a name. -/
def Json.Holds (value : Json) (name : String) : Prop :=
  ∃ members, value = .obj members ∧ Json.member name members ≠ .null

/-- The fields that an observable has to have, in the order in which they are read. -/
def observableFields : List String := ["subject", "predicate", "object"]

/-- A field of an observable is missing, and those before it are there. -/
def FieldMissing (value : Json) (name : String) : Prop :=
  ∃ earlier later, observableFields = earlier ++ name :: later ∧
    (∀ other ∈ earlier, value.Holds other) ∧ ¬ value.Holds name

/-- A field is reported to be missing exactly where it should stand, and because nothing stands
there. -/
theorem required_eq_error {value : Json} {name path : String} {f : Failure} (hPath : path ≠ "")
    (h : required value name path = .error f) :
    ¬ value.Holds name ∧ f = .missing (path ++ "." ++ name) := by
  have hMember : memberPath path name = path ++ "." ++ name := by
    rw [memberPath, if_neg (by simpa using hPath)]
  rw [← hMember]
  -- only an object can hold the member
  cases value with
  | obj members =>
    simp only [required] at h
    split at h
    · rename_i hNull
      cases h
      refine ⟨?_, rfl⟩
      rintro ⟨own, hOwn, hSome⟩
      cases hOwn
      exact hSome hNull
    · cases h
  | _ =>
    cases h
    refine ⟨?_, rfl⟩
    rintro ⟨own, hOwn, -⟩
    cases hOwn

/-- A field that is found was there. -/
theorem holds_of_required {value found : Json} {name path : String}
    (h : required value name path = .ok found) : value.Holds name := by
  cases value with
  | obj members =>
    simp only [required] at h
    split at h
    · cases h
    · rename_i hSome
      exact ⟨members, rfl, hSome⟩
  | _ => cases h

/-- What is missing in an observable is the first of its fields that is not there. -/
theorem Observable.read_missing {value : Json} {path missing : String} {absence : Absence}
    (hPath : path ≠ "") (h : Observable.read value path = .error (.missingField missing absence)) :
    ∃ name, missing = path ++ "." ++ name ∧ FieldMissing value name := by
  rw [Observable.read] at h
  rcases bind_eq_error_iff.mp h with hSubject | ⟨subject, hSubject, h⟩
  · obtain ⟨hLacks, hSame⟩ := required_eq_error hPath hSubject
    cases hSame
    exact ⟨"subject", rfl, [], _, rfl, List.forall_mem_nil _, hLacks⟩
  have hFirst := holds_of_required hSubject
  rcases bind_eq_error_iff.mp h with hPredicate | ⟨predicate, hPredicate, h⟩
  · obtain ⟨hLacks, hSame⟩ := required_eq_error hPath hPredicate
    cases hSame
    exact ⟨"predicate", rfl, ["subject"], _, rfl, List.forall_mem_singleton.mpr hFirst, hLacks⟩
  have hSecond := holds_of_required hPredicate
  rcases bind_eq_error_iff.mp h with hObject | ⟨object, -, h⟩
  · obtain ⟨hLacks, hSame⟩ := required_eq_error hPath hObject
    cases hSame
    exact ⟨"object", rfl, ["subject", "predicate"], _, rfl,
      List.forall_mem_cons.mpr ⟨hFirst, List.forall_mem_singleton.mpr hSecond⟩, hLacks⟩
  -- what comes after the three fields is not reported as missing
  obtain ⟨modifiers, -, h⟩ := (neverMissing_raise _).after h
  obtain ⟨members, -, h⟩ := (neverMissing_raise _).after h
  obtain ⟨limit, -, h⟩ := (neverMissing_readEnabledLimit _ _).after h
  cases h

-- ---------------------------------------------------------------------------
-- Specs
-- ---------------------------------------------------------------------------

/-- The path of the specs of a key. -/
def specsPath (key : String) : String := "filters[" ++ quoted key ++ "]"

/-- Something is missing among the specs that are read with a path, at what is added to it. -/
inductive SpecsMissing (value : Json) (path : String) : String → Prop
  /-- A spec of a list is an object without an IRI, and those before it are read. -/
  | listed {items : List Json} {i : Nat} {own : List (String × Json)} (hItems : value = .arr items)
      (hBefore : AllRead (FilterSpec.read .null) path (items.take i))
      (hItem : items[i]? = some (.obj own)) (hUnset : (Json.member "uri" own).isSet = false) :
      SpecsMissing value path (itemPath "" i ++ ".uri")
  /-- A spec of an object has no IRI. -/
  | named (name : String) : SpecsMissing value path ("[" ++ quoted name ++ "]" ++ ".uri")
  /-- A spec or a clause is no object. -/
  | noObject (front : String) : SpecsMissing value path (front ++ "]")

/-- A clause misses nothing but itself: its members may all be left out. -/
theorem Clause.read_missing {value : Json} {path missing : String} {absence : Absence}
    (h : Clause.read value path = .error (.missingField missing absence)) : missing = path := by
  cases value with
  | obj members =>
    rw [Clause.read] at h
    obtain ⟨name, -, h⟩ := (neverMissing_raise _).after h
    obtain ⟨input, -, h⟩ := (neverMissing_raise _).after h
    obtain ⟨radius, -, h⟩ := (neverMissing_readMeasure _ _).after h
    obtain ⟨points, -, h⟩ := (neverMissing_raise _).after h
    cases h
  | _ =>
    cases h
    rfl

/-- What is missing in a spec is the spec, its IRI, or one of its clauses. -/
theorem FilterSpec.read_missing {uri value : Json} {path missing : String} {absence : Absence}
    (h : FilterSpec.read uri value path = .error (.missingField missing absence)) :
    missing = path ∨ (∃ i, missing = itemPath (path ++ ".filters") i) ∨
      ∃ own, value = .obj own ∧ (Json.member "uri" own).isSet = false ∧
        missing = path ++ ".uri" := by
  cases value with
  | obj own =>
    -- the address is looked up first, then the clauses are read
    rw [FilterSpec.read] at h
    split at h
    · rename_i hUnset
      cases h
      refine .inr (.inr ⟨own, rfl, ?_, rfl⟩)
      rw [orElseEmpty] at hUnset
      split at hUnset
      · rename_i hSet
        rw [hSet] at hUnset
        cases hUnset
      · rename_i hNot
        exact eq_false_of_ne_true hNot
    obtain ⟨items, -, h⟩ := (neverMissing_raise _).after h
    rcases bind_eq_error_iff.mp h with hClauses | ⟨clauses, -, h⟩
    · obtain ⟨i, item, -, -, hItem⟩ := readItems_eq_error hClauses
      exact .inr (.inl ⟨i, Clause.read_missing hItem⟩)
    · cases h
  | _ =>
    cases h
    exact .inl rfl

/-- Only a list has items that are objects. -/
theorem eq_arr_of_toItems {value : Json} {items : List Json} {i : Nat}
    {own : List (String × Json)} (h : value.toItems = .ok items)
    (hItem : items[i]? = some (.obj own)) : value = .arr items := by
  cases value with
  | arr items' =>
    cases h
    rfl
  | str s =>
    cases h
    simp at hItem
  | obj members =>
    cases h
    simp at hItem
  | _ => cases h

/-- What the path of an item adds to the path of its list. -/
theorem itemPath_eq (path : String) (i : Nat) : itemPath path i = path ++ itemPath "" i := by
  simp [itemPath, String.append_assoc]

/-- What is missing from the specs of an entry is missing at a path that extends the path of the
entry. -/
theorem readSpecs_missing {value : Json} {path missing : String} {absence : Absence}
    (h : readSpecs value path = .error (.missingField missing absence)) :
    ∃ added, missing = path ++ added ∧ SpecsMissing value path added := by
  unfold readSpecs at h
  split at h
  · cases h
  split at h
  · -- named specs: the key is part of the path, for each of the three things that can be missing
    obtain ⟨before, ⟨name, spec⟩, after, -, -, hSpec⟩ := mapM_eq_error_iff.mp h
    rcases FilterSpec.read_missing hSpec with rfl | ⟨j, rfl⟩ | ⟨own, -, -, rfl⟩
    · exact ⟨"[" ++ quoted name ++ "]", by simp [String.append_assoc], .noObject _⟩
    · exact ⟨"[" ++ quoted name ++ "]" ++ ".filters" ++ "[" ++ toString j ++ "]",
        by simp [itemPath, String.append_assoc], .noObject _⟩
    · exact ⟨"[" ++ quoted name ++ "]" ++ ".uri", by simp [String.append_assoc], .named name⟩
  · obtain ⟨items, hItems, h⟩ := (neverMissing_raise _).after h
    -- listed specs: the index is part of the path instead
    obtain ⟨i, item, hItem, hBefore, hSpec⟩ := readItems_eq_error h
    rcases FilterSpec.read_missing hSpec with rfl | ⟨j, rfl⟩ | ⟨own, rfl, hUnset, rfl⟩
    · exact ⟨itemPath "" i, itemPath_eq path i, .noObject _⟩
    · exact ⟨itemPath "" i ++ ".filters" ++ "[" ++ toString j ++ "]",
        by simp [itemPath, String.append_assoc], .noObject _⟩
    · have hList := eq_arr_of_toItems (raise_eq_ok_iff.mp hItems) hItem
      exact ⟨itemPath "" i ++ ".uri", by rw [itemPath_eq, String.append_assoc],
        .listed hList hBefore hItem hUnset⟩

-- ---------------------------------------------------------------------------
-- What a path tells
-- ---------------------------------------------------------------------------

/-- The path of an item ends in its number in square brackets. -/
theorem toList_itemPath (path : String) (i : Nat) :
    (itemPath path i).toList = path.toList ++ '[' :: (Nat.toDigits 10 i ++ [']']) := by
  simp [itemPath, Nat.repr]

/-- No digit is a bracket, so the number in a path ends at the first closing bracket. -/
theorem bracket_not_mem_toDigits (i : Nat) : ']' ∉ Nat.toDigits 10 i := by
  intro hMem
  exact absurd (Binary64.allDigits_toDigits i _ hMem) (by decide)

/-- The path of an item tells its place and what is added to it. -/
theorem itemPath_append_inj {path added added' : String} {i j : Nat}
    (h : itemPath path i ++ added = itemPath path j ++ added') : i = j ∧ added = added' := by
  have hText : Nat.toDigits 10 i ++ ']' :: added.toList =
      Nat.toDigits 10 j ++ ']' :: added'.toList := by
    simpa [toList_itemPath] using congrArg String.toList h
  obtain ⟨hDigits, hAdded⟩ :=
    append_cons_inj (bracket_not_mem_toDigits i) (bracket_not_mem_toDigits j) hText
  refine ⟨?_, String.toList_inj.mp hAdded⟩
  rw [← Binary64.numeral_toDigits i, hDigits, Binary64.numeral_toDigits]

/-- The path of the specs of a key tells the key and what is added to it. -/
theorem specsPath_append_inj {key key' added added' : String}
    (h : specsPath key ++ added = specsPath key' ++ added') : key = key' ∧ added = added' := by
  have hText : (quoted key).toList ++ ']' :: added.toList =
      (quoted key').toList ++ ']' :: added'.toList := by
    simpa [specsPath] using congrArg String.toList h
  obtain ⟨hKey, hAdded⟩ := quoted_append_inj hText
  exact ⟨hKey, String.toList_inj.mp (List.cons.inj hAdded).2⟩

/-- Paths into the filters and paths into the observables start differently. -/
theorem specsPath_ne_observables (key added added' : String) (i : Nat) :
    specsPath key ++ added ≠ itemPath "observables" i ++ added' := by
  intro h
  have hText := congrArg String.toList h
  simp [specsPath, itemPath] at hText

/-- A number in brackets is not a name in quotes. -/
theorem itemPath_ne_quoted (i : Nat) (name added added' : String) :
    itemPath "" i ++ added ≠ "[" ++ quoted name ++ "]" ++ added' := by
  intro h
  have hText : Nat.toDigits 10 i ++ ']' :: added.toList =
      (quoted name).toList ++ ']' :: added'.toList := by
    simpa [toList_itemPath] using congrArg String.toList h
  obtain ⟨quote, body, hQuoted, hQuote⟩ := quoted_eq_cons name
  -- an index starts with a digit, a quoted name with a quote
  obtain ⟨digit, digits, hDigits⟩ := List.exists_cons_of_ne_nil (@Nat.toDigits_ne_nil i 10)
  rw [hQuoted, hDigits] at hText
  have hDigit : digit.isDigit = true := by
    refine Binary64.allDigits_toDigits i digit ?_
    rw [hDigits]
    exact List.mem_cons_self
  rw [(List.cons.inj hText).1] at hDigit
  rcases hQuote with rfl | rfl
  · exact absurd hDigit (by decide)
  · exact absurd hDigit (by decide)

/-- Where a place of a list has no IRI, the path tells the place. -/
theorem SpecsMissing.eq_listed {value : Json} {path : String} {i : Nat}
    (h : SpecsMissing value path (itemPath "" i ++ ".uri")) :
    ∃ items own, value = .arr items ∧ AllRead (FilterSpec.read .null) path (items.take i) ∧
      items[i]? = some (.obj own) ∧ (Json.member "uri" own).isSet = false := by
  generalize hAdded : itemPath "" i ++ ".uri" = added at h
  cases h with
  | listed hItems hBefore hItem hUnset =>
    obtain ⟨rfl, -⟩ := itemPath_append_inj hAdded
    exact ⟨_, _, hItems, hBefore, hItem, hUnset⟩
  | named name => exact absurd hAdded (itemPath_ne_quoted i name _ _)
  | noObject front =>
    have hLast := congrArg List.getLast? (congrArg String.toList hAdded)
    simp at hLast

-- ---------------------------------------------------------------------------
-- Requests
-- ---------------------------------------------------------------------------

/-- The observables of a request, not yet read. -/
def observableItems (members : List (String × Json)) : Except Fault (List Json) :=
  (orElseEmpty (Json.member "observables" members) (.arr [])).toItems

/-- Something is missing in a request: all that is read before it is read. -/
inductive RequestMissing (members : List (String × Json)) : String → Prop
  | filters : RequestMissing members "filters"
  | observable {items : List Json} {i : Nat} {item : Json} {name : String}
      (hItems : observableItems members = .ok items)
      (hBefore : AllRead Observable.read "observables" (items.take i))
      (hItem : items[i]? = some item) (hField : FieldMissing item name) :
      RequestMissing members (itemPath "observables" i ++ "." ++ name)
  | specs {items : List Json} {before after : List (String × Json)} {key added : String}
      {value : Json} (hItems : observableItems members = .ok items)
      (hObservables : AllRead Observable.read "observables" items)
      (hEntries : filterEntries members = .ok (before ++ (key, value) :: after))
      (hBefore : ∀ entry ∈ before, ∃ specs, readEntry entry = .ok specs)
      (hSpecs : SpecsMissing value (specsPath key) added) :
      RequestMissing members (specsPath key ++ added)

/-- The filters themselves are all that can be missing when their entries are looked up. -/
theorem filterEntries_missing {members : List (String × Json)} {missing : String}
    {absence : Absence} (h : filterEntries members = .error (.missingField missing absence)) :
    missing = "filters" := by
  unfold filterEntries at h
  split at h
  · cases h
  · cases h
    rfl

/-- An entry is read as its specs, with its key kept. -/
theorem readEntry_eq (key : String) (value : Json) :
    readEntry (key, value) = (readSpecs value (specsPath key)).map fun specs => (key, specs) := rfl

/-- The path of an item is never the path of the request, which is empty. -/
theorem itemPath_ne_empty (path : String) (i : Nat) : itemPath path i ≠ "" := by
  simp [itemPath]

/-- Whatever a request is reported to miss is missing from it at that path. -/
theorem Request.read_missing {members : List (String × Json)} {missing : String}
    {absence : Absence}
    (h : Request.read (.obj members) = .error (.missingField missing absence)) :
    RequestMissing members missing := by
  rw [Request.read] at h
  -- the request is read in the order of its fields: what is missing is missing in the first field
  -- that fails, and the fields before it are read
  rcases bind_eq_error_iff.mp h with hFilters | ⟨entries, hEntries, h⟩
  · obtain rfl := filterEntries_missing hFilters
    exact .filters
  obtain ⟨items, hItems, h⟩ := (neverMissing_raise _).after h
  rw [raise_eq_ok_iff] at hItems
  rcases bind_eq_error_iff.mp h with hObservables | ⟨observables, hObservables, h⟩
  · obtain ⟨i, item, hItem, hBefore, hMissing⟩ := readItems_eq_error hObservables
    obtain ⟨name, rfl, hField⟩ := Observable.read_missing (itemPath_ne_empty _ _) hMissing
    exact .observable hItems hBefore hItem hField
  have hRead := allRead_of_readItems hObservables
  obtain ⟨keys, -, h⟩ := (neverMissing_raise _).after h
  rcases bind_eq_error_iff.mp h with hSpecs | ⟨filters, -, h⟩
  · obtain ⟨before, ⟨key, value⟩, after, rfl, hBefore, hEntry⟩ := mapM_eq_error_iff.mp hSpecs
    rw [readEntry_eq, map_eq_error_iff] at hEntry
    obtain ⟨added, rfl, hMissing⟩ := readSpecs_missing hEntry
    exact .specs hItems hRead hEntries hBefore hMissing
  obtain ⟨limit, -, h⟩ := (neverMissing_readLimit _ _).after h
  cases h

/-- What is missing where a field of an observable stands. -/
theorem RequestMissing.observable_field {members : List (String × Json)} {i : Nat} {name : String}
    (h : RequestMissing members (itemPath "observables" i ++ "." ++ name)) :
    ∃ items item, observableItems members = .ok items ∧ items[i]? = some item ∧
      FieldMissing item name ∧ AllRead Observable.read "observables" (items.take i) := by
  generalize hPath : itemPath "observables" i ++ "." ++ name = missing at h
  rw [String.append_assoc] at hPath
  cases h with
  | filters =>
    have hText := congrArg String.toList hPath
    simp [itemPath] at hText
  | observable hItems hBefore hItem hField =>
    rw [String.append_assoc] at hPath
    obtain ⟨rfl, hName⟩ := itemPath_append_inj hPath
    obtain rfl := (String.append_right_inj _).mp hName
    exact ⟨_, _, hItems, hItem, hField, hBefore⟩
  | specs => exact absurd hPath.symm (specsPath_ne_observables _ _ _ _)

/-- What is missing where the IRI of a spec of a list stands. -/
theorem RequestMissing.listed_uri {members : List (String × Json)} {key : String} {i : Nat}
    (h : RequestMissing members (itemPath (specsPath key) i ++ ".uri")) :
    ∃ items before specs after own, observableItems members = .ok items ∧
      AllRead Observable.read "observables" items ∧
      filterEntries members = .ok (before ++ (key, .arr specs) :: after) ∧
      (∀ entry ∈ before, ∃ read, readEntry entry = .ok read) ∧
      AllRead (FilterSpec.read .null) (specsPath key) (specs.take i) ∧
      specs[i]? = some (.obj own) ∧ (Json.member "uri" own).isSet = false := by
  rw [itemPath_eq, String.append_assoc] at h
  generalize hPath : specsPath key ++ (itemPath "" i ++ ".uri") = missing at h
  cases h with
  | filters =>
    have hText := congrArg String.toList hPath
    simp [specsPath] at hText
  | observable =>
    rw [String.append_assoc] at hPath
    exact absurd hPath (specsPath_ne_observables _ _ _ _)
  | specs hItems hObservables hEntries hBefore hSpecs =>
    obtain ⟨rfl, rfl⟩ := specsPath_append_inj hPath
    obtain ⟨specs, own, rfl, hRead, hItem, hUnset⟩ := hSpecs.eq_listed
    exact ⟨_, _, specs, _, own, hItems, hObservables, hEntries, hBefore, hRead, hItem, hUnset⟩

/-- **Paths of what is missing.** If a field of an observable is reported as missing, the observable
with that number does not have it but has the fields before it, and all observables before are read.
If the IRI of a spec of a list is, the spec with that number is an object without one, and all
observables, all entries before the key and all specs before it are read. -/
theorem Request.missing_paths_faithful (members : List (String × Json)) :
    (∀ i name absence,
      Request.read (.obj members) =
          .error (.missingField (itemPath "observables" i ++ "." ++ name) absence) →
        ∃ items item, observableItems members = .ok items ∧ items[i]? = some item ∧
          FieldMissing item name ∧ AllRead Observable.read "observables" (items.take i)) ∧
    (∀ key i absence,
      Request.read (.obj members) =
          .error (.missingField (itemPath (specsPath key) i ++ ".uri") absence) →
        ∃ items before specs after own, observableItems members = .ok items ∧
          AllRead Observable.read "observables" items ∧
          filterEntries members = .ok (before ++ (key, .arr specs) :: after) ∧
          (∀ entry ∈ before, ∃ read, readEntry entry = .ok read) ∧
          AllRead (FilterSpec.read .null) (specsPath key) (specs.take i) ∧
          specs[i]? = some (.obj own) ∧ (Json.member "uri" own).isSet = false) :=
  ⟨fun _ _ _ h => (Request.read_missing h).observable_field,
    fun _ _ _ h => (Request.read_missing h).listed_uri⟩

/-- An observable that has all its fields, and one without a predicate. -/
def tidesMembers : List (String × Json) :=
  [("observables", .arr [
    .obj [("subject", .str "?gauge"), ("predicate", .str "a"), ("object", .str "ex:Gauge")],
    .obj [("subject", .str "?gauge"), ("predicate", .null)]])]

/-- Two specs of a key whose name needs double quotes; the second one has an empty IRI. -/
def levelsMembers : List (String × Json) :=
  [("filters", .obj [("?gauge", .obj []),
    ("gauge's level", .arr [.obj [("uri", .str "ex:low")], .obj [("uri", .str "")]])])]

/-- The second observable lacks its predicate but not its subject; of the specs the first one is
read, and the second one has no IRI that counts. -/
theorem Request.missing_paths_faithful_gauges :
    (Request.read (.obj tidesMembers) =
        .error (.missing (itemPath "observables" 1 ++ "." ++ "predicate")) ∧
      ∃ items item, observableItems tidesMembers = .ok items ∧ items[1]? = some item ∧
        FieldMissing item "predicate" ∧
        AllRead Observable.read "observables" (items.take 1)) ∧
    (Request.read (.obj levelsMembers) = .error (.missing "filters[\"gauge's level\"][1].uri") ∧
      ∃ items before specs after own, observableItems levelsMembers = .ok items ∧
        AllRead Observable.read "observables" items ∧
        filterEntries levelsMembers = .ok (before ++ ("gauge's level", .arr specs) :: after) ∧
        (∀ entry ∈ before, ∃ read, readEntry entry = .ok read) ∧
        AllRead (FilterSpec.read .null) (specsPath "gauge's level") (specs.take 1) ∧
        specs[1]? = some (.obj own) ∧ (Json.member "uri" own).isSet = false) :=
  ⟨⟨rfl, (Request.missing_paths_faithful tidesMembers).1 1 "predicate" .field rfl⟩,
    rfl, (Request.missing_paths_faithful levelsMembers).2 "gauge's level" 1 .field rfl⟩

end SparqlSelect
