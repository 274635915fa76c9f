import SparqlSelect.Proofs.Traced.Success
import SparqlSelect.Settings.Basic

/-!
# Tables and sets of settings

A table is merged into another pair by pair: a name that is there keeps its place, and a new one
comes to the end. So the names of a table stay distinct, and those that were there first stay first.
The value of a name is the one that came last. A table that is merged into one that its names begin
with is the whole table again, in its own order.

The members of a set are kept in the order in which they came first. If they are texts, they can be
sorted, and the set of the sorted members is the sorted list.

* `Json.equal_iff`, `Json.equal_trans` — equality of names and members.
* `setMember_cases` — what setting a member does to a table.
* `Distinct.merge`, `merge_of_names` — the names of a merged table, and a table merged again.
* `exists_mem_merge`, `mem_merge_of_mem` — values that are given, and values that stay.
* `exists_sorted`, `setOf_arr` — sets of texts.
-/

namespace SparqlSelect

-- ---------------------------------------------------------------------------
-- Equal values
-- ---------------------------------------------------------------------------

namespace Json

variable {a b c : Json}

/-- Values are equal if they are numbers of one amount, both `null`, or the same text. -/
theorem equal_iff : a.equal b = true ↔
    (∃ m, a.rank? = some m ∧ b.rank? = some m) ∨ (a = .null ∧ b = .null) ∨
      ∃ s, a = .str s ∧ b = .str s := by
  unfold equal
  -- a value with a rank is a number or a truth value, and only equal to one of the same rank
  cases ha : a.rank? with
  | some m =>
    cases hb : b.rank? with
    | some n =>
      have hNone : ¬ ((a = .null ∧ b = .null) ∨ ∃ s, a = .str s ∧ b = .str s) := by
        rintro (⟨rfl, -⟩ | ⟨s, rfl, -⟩) <;> cases ha
      rw [or_iff_left hNone]
      change (m == n) = true ↔ _
      constructor
      · intro h
        exact ⟨m, rfl, by rw [eq_of_beq h]⟩
      · rintro ⟨k, ⟨⟩, ⟨⟩⟩
        exact beq_self_eq_true _
    | none =>
      have hNone : ¬ ((a = .null ∧ b = .null) ∨ ∃ s, a = .str s ∧ b = .str s) := by
        rintro (⟨rfl, -⟩ | ⟨s, rfl, -⟩) <;> cases ha
      simp [hNone]
  | none =>
    cases hb : b.rank? with
    | some n =>
      have hNone : ¬ ((a = .null ∧ b = .null) ∨ ∃ s, a = .str s ∧ b = .str s) := by
        rintro (⟨-, rfl⟩ | ⟨s, -, rfl⟩) <;> cases hb
      simp [hNone]
    | none =>
      cases a <;> cases b <;> simp
      exact eq_comm

theorem equal_symm (h : a.equal b = true) : b.equal a = true := by
  rw [equal_iff] at h ⊢
  rcases h with ⟨m, ha, hb⟩ | ⟨ha, hb⟩ | ⟨s, ha, hb⟩
  · exact .inl ⟨m, hb, ha⟩
  · exact .inr (.inl ⟨hb, ha⟩)
  · exact .inr (.inr ⟨s, hb, ha⟩)

theorem equal_comm (a b : Json) : a.equal b = b.equal a :=
  Bool.eq_iff_iff.mpr ⟨equal_symm, equal_symm⟩

/-- Equality of keys is transitive, also across integers, doubles and truth values: these compare
by their amounts. -/
theorem equal_trans (h : a.equal b = true) (h' : b.equal c = true) : a.equal c = true := by
  rw [equal_iff] at h h' ⊢
  -- the three ways to be equal exclude each other at the value in the middle
  rcases h with ⟨m, ha, hb⟩ | ⟨ha, rfl⟩ | ⟨s, ha, rfl⟩
  · rcases h' with ⟨n, hb', hc⟩ | ⟨rfl, -⟩ | ⟨s, rfl, -⟩
    · rw [hb] at hb'
      cases hb'
      exact .inl ⟨m, ha, hc⟩
    · cases hb
    · cases hb
  · rcases h' with ⟨n, hb', -⟩ | ⟨-, hc⟩ | ⟨s, hb', -⟩
    · cases hb'
    · exact .inr (.inl ⟨ha, hc⟩)
    · cases hb'
  · rcases h' with ⟨n, hb', -⟩ | ⟨hb', -⟩ | ⟨t, hb', hc⟩
    · cases hb'
    · cases hb'
    · cases hb'
      exact .inr (.inr ⟨s, ha, hc⟩)

end Json

-- ---------------------------------------------------------------------------
-- Tables
-- ---------------------------------------------------------------------------

/-- A member is set in the place of the first one with an equal name, or it comes to the end. -/
theorem setMember_cases {κ α : Type} (equal : κ → κ → Bool) (name : κ) (value : α)
    (table : List (κ × α)) :
    ((∀ p ∈ table, equal p.1 name = false) ∧
      setMember equal name value table = table ++ [(name, value)]) ∨
    ∃ before n v after, table = before ++ (n, v) :: after ∧
      (∀ p ∈ before, equal p.1 name = false) ∧ equal n name = true ∧
      setMember equal name value table = before ++ (n, value) :: after := by
  induction table with
  | nil => exact .inl ⟨nofun, rfl⟩
  | cons p rest ih =>
    obtain ⟨n, v⟩ := p
    by_cases hEqual : equal n name = true
    · refine .inr ⟨[], n, v, rest, rfl, nofun, hEqual, ?_⟩
      rw [setMember, if_pos hEqual]
      rfl
    · have hFirst := eq_false_of_ne_true hEqual
      rw [setMember, if_neg hEqual]
      rcases ih with ⟨hNone, hSet⟩ | ⟨before, n', v', after, rfl, hBefore, hSame, hSet⟩
      · exact .inl ⟨List.forall_mem_cons.mpr ⟨hFirst, hNone⟩, by rw [hSet]; rfl⟩
      · exact .inr ⟨(n, v) :: before, n', v', after, rfl,
          List.forall_mem_cons.mpr ⟨hFirst, hBefore⟩, hSame, by rw [hSet]; rfl⟩

/-- A member is set behind those whose names are not equal to its name. -/
theorem setMember_append {κ α : Type} {equal : κ → κ → Bool} {name : κ} {value : α}
    {done table : List (κ × α)} (h : ∀ p ∈ done, equal p.1 name = false) :
    setMember equal name value (done ++ table) = done ++ setMember equal name value table := by
  induction done with
  | nil => rfl
  | cons p done ih =>
    obtain ⟨hFirst, hRest⟩ := List.forall_mem_cons.mp h
    have hNot : ¬ equal p.1 name = true := by simp [hFirst]
    rw [List.cons_append, setMember, if_neg hNot, ih hRest, List.cons_append]

namespace Settings

/-- The names of a table in order. -/
def names (table : List (Json × Json)) : List Json := table.map (·.1)

/-- No name of a table is equal to another. -/
def Distinct (table : List (Json × Json)) : Prop :=
  (names table).Pairwise fun m n => m.equal n = false

section

variable {table pairs done rest : List (Json × Json)} {name iri n v : Json}

/-- Setting a member keeps the names, or adds a new one at the end. -/
theorem names_setMember (name iri : Json) (table : List (Json × Json)) :
    names (setMember Json.equal name iri table) = names table ∨
      (∀ n ∈ names table, n.equal name = false) ∧
        names (setMember Json.equal name iri table) = names table ++ [name] := by
  rcases setMember_cases Json.equal name iri table with
    ⟨hNone, hSet⟩ | ⟨before, n, v, after, rfl, -, -, hSet⟩
  · refine .inr ⟨List.forall_mem_map.mpr hNone, ?_⟩
    rw [hSet]
    simp [names]
  · rw [hSet]
    exact .inl (by simp [names])

/-- Names stay distinct. -/
theorem Distinct.merge (h : Distinct table) (pairs : List (Json × Json)) :
    Distinct (merge table pairs) := by
  induction pairs generalizing table with
  | nil => exact h
  | cons p rest ih =>
    refine ih ?_
    rcases names_setMember p.1 p.2 table with hSame | ⟨hNone, hNew⟩
    · rw [Distinct, hSame]
      exact h
    · rw [Distinct, hNew, List.pairwise_append]
      exact ⟨h, List.pairwise_singleton _ _, fun n hn m hm => by
        rw [List.mem_singleton.mp hm]
        exact hNone n hn⟩

/-- The names of a table stay in front. -/
theorem names_prefix_merge (table pairs : List (Json × Json)) :
    names table <+: names (merge table pairs) := by
  induction pairs generalizing table with
  | nil => exact List.prefix_rfl
  | cons p rest ih =>
    refine List.IsPrefix.trans ?_ (ih _)
    rcases names_setMember p.1 p.2 table with hSame | ⟨-, hNew⟩
    · exact hSame ▸ List.prefix_rfl
    · rw [hNew]
      exact List.prefix_append _ _

/-- Every name of a merged table is a name of one of the two. -/
theorem forall_names_merge {P : Json → Prop} (hTable : ∀ n ∈ names table, P n)
    (hPairs : ∀ n ∈ names pairs, P n) : ∀ n ∈ names (merge table pairs), P n := by
  induction pairs generalizing table with
  | nil => exact hTable
  | cons p rest ih =>
    obtain ⟨hFirst, hRest⟩ := List.forall_mem_cons.mp hPairs
    refine ih ?_ hRest
    rcases names_setMember p.1 p.2 table with hSame | ⟨-, hNew⟩
    · rw [hSame]
      exact hTable
    · rw [hNew]
      exact List.forall_mem_append.mpr ⟨hTable, by simpa using hFirst⟩

/-- What of a table comes after `done` is replaced by `rest`, if these are names of `rest` in the
same order. -/
theorem merge_append (done : List (Json × Json)) (hDistinct : Distinct (done ++ rest))
    (hNames : names table <+: names rest) (hSelf : ∀ n ∈ names table, n.equal n = true) :
    merge (done ++ table) rest = done ++ rest := by
  induction rest generalizing done table with
  | nil =>
    obtain rfl : table = [] := by simpa [names] using hNames
    rfl
  | cons p rest ih =>
    obtain ⟨name, iri⟩ := p
    have hAll : done ++ (name, iri) :: rest = done ++ [(name, iri)] ++ rest := by simp
    -- nothing of `done` has the name of the first pair, so that pair comes right behind it
    have hApart : ∀ p ∈ done, p.1.equal name = false := by
      intro p hp
      rw [Distinct, names, List.map_append, List.pairwise_append] at hDistinct
      exact hDistinct.2.2 _ (List.mem_map_of_mem hp) name (by simp)
    -- `later` is what is left of `table` when the first pair has been set
    have hStep (later : List (Json × Json)) (hNames : names later <+: names rest)
        (hSelf : ∀ n ∈ names later, n.equal n = true)
        (hSet : setMember Json.equal name iri table = (name, iri) :: later) :
        merge (done ++ table) ((name, iri) :: rest) = done ++ (name, iri) :: rest := by
      have hNext := ih (done ++ [(name, iri)]) (hAll ▸ hDistinct) hNames hSelf
      rw [List.append_assoc, List.singleton_append, ← hSet, ← setMember_append hApart, ← hAll]
        at hNext
      exact hNext
    cases table with
    | nil => exact hStep [] List.nil_prefix nofun rfl
    | cons q table =>
      obtain ⟨n, v⟩ := q
      obtain ⟨rfl, hTail⟩ := List.cons_prefix_cons.mp hNames
      obtain ⟨hFirst, hOthers⟩ := List.forall_mem_cons.mp hSelf
      exact hStep table hTail hOthers (if_pos hFirst)

/-- A table is the same again if it is merged into one that its names begin with. -/
theorem merge_of_names (hDistinct : Distinct pairs) (hNames : names table <+: names pairs)
    (hSelf : ∀ n ∈ names table, n.equal n = true) : merge table pairs = pairs :=
  merge_append [] hDistinct hNames hSelf

/-- A value stays if no name that is given is equal to its name. -/
theorem mem_merge_of_mem (h : (n, v) ∈ table) (hNone : ∀ p ∈ pairs, n.equal p.1 = false) :
    (n, v) ∈ merge table pairs := by
  induction pairs generalizing table with
  | nil => exact h
  | cons p rest ih =>
    obtain ⟨hFirst, hRest⟩ := List.forall_mem_cons.mp hNone
    refine ih ?_ hRest
    change (n, v) ∈ setMember Json.equal p.1 p.2 table
    -- the pair adds a member, or replaces one that is not this one
    rcases setMember_cases Json.equal p.1 p.2 table with
      ⟨-, hSet⟩ | ⟨before, m, w, after, rfl, -, hEqual, hSet⟩
    · rw [hSet]
      exact List.mem_append_left _ h
    · rw [hSet]
      have hOther : (n, v) ≠ (m, w) := by
        rintro ⟨⟩
        rw [hFirst] at hEqual
        cases hEqual
      simp only [List.mem_append, List.mem_cons, hOther, false_or] at h
      simp only [List.mem_append, List.mem_cons]
      exact h.imp_right .inr

/-- A name has the value that is given for it last; the name may have been there in another
spelling. -/
theorem exists_mem_merge (h : pairs = done ++ (name, iri) :: rest)
    (hLast : ∀ p ∈ rest, p.1.equal name = false) :
    ∃ n, (n = name ∨ n.equal name = true) ∧ (n, iri) ∈ merge table pairs := by
  -- the last pair of the name has set it, and no pair after it does
  obtain ⟨n, hName, hMem⟩ : ∃ n, (n = name ∨ n.equal name = true) ∧
      (n, iri) ∈ setMember Json.equal name iri (merge table done) := by
    rcases setMember_cases Json.equal name iri (merge table done) with
      ⟨-, hSet⟩ | ⟨before, n, v, after, -, -, hEqual, hSet⟩
    · exact ⟨name, .inl rfl, by simp [hSet]⟩
    · exact ⟨n, .inr hEqual, by simp [hSet]⟩
  refine ⟨n, hName, ?_⟩
  rw [h, merge, List.foldl_append]
  change (n, iri) ∈ merge (setMember Json.equal name iri (merge table done)) rest
  refine mem_merge_of_mem hMem fun p hp => ?_
  have hNot := hLast p hp
  rcases hName with rfl | hEqual
  · rw [Json.equal_comm]
    exact hNot
  · rw [Bool.eq_false_iff] at hNot ⊢
    exact fun hSame => hNot (Json.equal_trans (Json.equal_symm hSame) hEqual)

end

-- ---------------------------------------------------------------------------
-- Sets
-- ---------------------------------------------------------------------------

/-- The distinct members of a list, each at its first place. -/
def distinctMembers (items done : List Json) : List Json :=
  items.foldl (fun done v => if done.any (·.equal v) then done else done ++ [v]) done

/-- A value is a text. -/
def IsText (v : Json) : Prop := ∃ s, v = .str s

section

variable {items done members : List Json} {value v : Json}

theorem scalar_eq_ok_iff {v w : Json} : scalar v = .ok w ↔ v.isScalar = true ∧ w = v := by
  unfold scalar
  split
  · rename_i hScalar
    simp [hScalar, eq_comm]
  · rename_i hNot
    simp [hNot]

/-- A list of scalars is read as it is. -/
theorem mapM_scalar (h : ∀ v ∈ items, v.isScalar = true) : items.mapM scalar = .ok items :=
  mapM_eq_ok_iff.mpr (List.forall₂_same.mpr fun v hv => scalar_eq_ok_iff.mpr ⟨h v hv, rfl⟩)

/-- What is read as a set: a list of scalars, each kept once. -/
theorem setOf_eq_ok_iff : setOf value = .ok members ↔
    ∃ items, value.toItems = .ok items ∧ (∀ v ∈ items, v.isScalar = true) ∧
      members = distinctMembers items [] := by
  constructor
  · intro h
    obtain ⟨items, hItems, h⟩ := bind_eq_ok_iff.mp h
    obtain ⟨scalars, hScalars, h⟩ := bind_eq_ok_iff.mp h
    have hEach := mapM_eq_ok_iff.mp hScalars
    have hAll : ∀ v ∈ items, v.isScalar = true := by
      intro v hv
      obtain ⟨w, -, hw⟩ := exists_of_forall₂_left hEach hv
      exact (scalar_eq_ok_iff.mp hw).1
    rw [mapM_scalar hAll] at hScalars
    cases hScalars
    exact ⟨items, hItems, hAll, (Except.ok.inj h).symm⟩
  · rintro ⟨items, hItems, hAll, rfl⟩
    rw [setOf, hItems]
    change (items.mapM scalar >>= _) = _
    rw [mapM_scalar hAll]
    rfl

/-- The members of a set come from the list. -/
theorem forall_distinctMembers {P : Json → Prop} (hItems : ∀ v ∈ items, P v)
    (hDone : ∀ v ∈ done, P v) : ∀ v ∈ distinctMembers items done, P v := by
  induction items generalizing done with
  | nil => exact hDone
  | cons v rest ih =>
    obtain ⟨hFirst, hRest⟩ := List.forall_mem_cons.mp hItems
    refine ih hRest ?_
    dsimp only
    split
    · exact hDone
    · exact List.forall_mem_append.mpr ⟨hDone, by simpa using hFirst⟩

/-- The members of a set are distinct. -/
theorem pairwise_distinctMembers (hDone : done.Pairwise fun v w => v.equal w = false) :
    (distinctMembers items done).Pairwise fun v w => v.equal w = false := by
  induction items generalizing done with
  | nil => exact hDone
  | cons v rest ih =>
    refine ih ?_
    dsimp only
    split
    · exact hDone
    · rename_i hNew
      rw [List.pairwise_append]
      refine ⟨hDone, List.pairwise_singleton _ _, fun w hw v' hv' => ?_⟩
      rw [List.mem_singleton.mp hv']
      exact (List.any_eq_false.mp (eq_false_of_ne_true hNew) w hw : ¬ _) |> eq_false_of_ne_true

/-- Members that are distinct already are the members of the set. -/
theorem distinctMembers_of_pairwise
    (h : (done ++ items).Pairwise fun v w => v.equal w = false) :
    distinctMembers items done = done ++ items := by
  induction items generalizing done with
  | nil => simp [distinctMembers]
  | cons v rest ih =>
    have hNone : done.any (·.equal v) = false := by
      refine List.any_eq_false.mpr fun w hw => ?_
      rw [Bool.not_eq_true]
      exact (List.pairwise_append.mp h).2.2 w hw v List.mem_cons_self
    have hAll : done ++ v :: rest = done ++ [v] ++ rest := by simp
    rw [hAll, ← ih (hAll ▸ h)]
    change distinctMembers rest (if done.any (·.equal v) then done else done ++ [v]) = _
    rw [hNone, if_neg Bool.false_ne_true]

/-- Among texts every comparison is defined, so a text finds its place. -/
theorem exists_insertSorted (hv : IsText v) (h : ∀ w ∈ items, IsText w) :
    ∃ sorted, insertSorted v items = .ok sorted ∧ sorted.Perm (v :: items) := by
  obtain ⟨s, rfl⟩ := hv
  induction items with
  | nil => exact ⟨[.str s], rfl, .refl _⟩
  | cons w rest ih =>
    obtain ⟨⟨t, rfl⟩, hRest⟩ := List.forall_mem_cons.mp h
    obtain ⟨sorted, hSorted, hPerm⟩ := ih hRest
    by_cases hOrder : s ≤ t
    · refine ⟨.str s :: .str t :: rest, ?_, .refl _⟩
      simp [insertSorted, inOrder, hOrder, bind, Except.bind]
    · refine ⟨.str t :: sorted, ?_, (hPerm.cons _).trans (.swap ..)⟩
      simp [insertSorted, inOrder, hOrder, hSorted, bind, Except.bind]

/-- Texts can be sorted. -/
theorem exists_sorted (h : ∀ v ∈ items, IsText v) :
    ∃ members, sorted items = .ok members ∧ members.Perm items := by
  induction items with
  | nil => exact ⟨[], rfl, .refl _⟩
  | cons v rest ih =>
    obtain ⟨hv, hRest⟩ := List.forall_mem_cons.mp h
    obtain ⟨others, hOthers, hPerm⟩ := ih hRest
    obtain ⟨members, hMembers, hAll⟩ :=
      exists_insertSorted hv fun w hw => hRest w (hPerm.mem_iff.mp hw)
    refine ⟨members, ?_, hAll.trans (hPerm.cons v)⟩
    rw [sorted, List.foldrM_cons]
    change (sorted rest >>= insertSorted v) = _
    rw [hOthers]
    exact hMembers

/-- A list of distinct texts is the set of its items. -/
theorem setOf_arr (h : ∀ v ∈ items, IsText v)
    (hDistinct : items.Pairwise fun v w => v.equal w = false) : setOf (.arr items) = .ok items := by
  refine setOf_eq_ok_iff.mpr ⟨items, rfl, fun v hv => ?_, ?_⟩
  · obtain ⟨s, rfl⟩ := h v hv
    rfl
  · rw [distinctMembers_of_pairwise (by simpa using hDistinct), List.nil_append]

end

end Settings

end SparqlSelect
