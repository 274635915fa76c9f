import SparqlSelect.Unicode.Case

/-!
# Characters that a change of case does not bring about

White space, quotes, brackets and the marks of variables have no case, and no letter becomes one of
them. So a text in another case holds them only where it did before. The same is true of the four
characters that are ASCII letters in one of their cases only: they are no image, and each of them is
mapped away in one direction.

* `mem_of_mem_lowerCase`, `mem_of_mem_capitalize`, `mem_of_mem_upperFirst` — what is found in a text
  in another case was there before.
* `mem_capitalize_lowerCase`, `mem_upperFirst` — what is the same in every case is found again.
* `count_capitalize_lowerCase`, `count_upperFirst` — what is both is found as often as before.
-/

namespace SparqlSelect

namespace Unicode

/-- White space, quotes, brackets, the marks of variables, and letters that are an ASCII letter in
one of their cases. -/
def unreachedRanges : List (Nat × Nat) :=
  blankRanges ++ [(0x22, 0x22), (0x24, 0x24), (0x27, 0x29), (0x3f, 0x3f), (0x7b, 0x7b),
    (0x7d, 0x7d), (0x130, 0x131), (0x17f, 0x17f), (0x212a, 0x212a)]

/-- Whether a code point is in one of the ranges. -/
def isUnreached (n : Nat) : Bool := unreachedRanges.any fun r => r.1 ≤ n && n ≤ r.2

/-- Whether no code point is shifted into one of the ranges. -/
def Shift.keepsOut (s : Shift) : Bool :=
  unreachedRanges.all fun r => decide ((r.2 : Int) < s.first + s.offset) ||
    decide ((s.last : Int) + s.offset < r.1)

/-- Whether neither the sequences nor the shifts of a table lead into one of the ranges. -/
def keepsOut (sequences : List (Nat × List Nat)) (shifts : List Shift) : Bool :=
  shifts.all Shift.keepsOut && sequences.all fun entry => entry.2.all fun n => !isUnreached n

theorem keepsOut_tables : keepsOut upperSequences upperShifts = true ∧
    keepsOut lowerSequences lowerShifts = true ∧ keepsOut titleSequences titleShifts = true := by
  decide +kernel

theorem isUnreached_iff {n : Nat} :
    isUnreached n = true ↔ ∃ r ∈ unreachedRanges, r.1 ≤ n ∧ n ≤ r.2 := by
  simp [isUnreached]

theorem isUnreached_shift {n m : Nat} {shifts : List Shift}
    (hTable : ∀ s ∈ shifts, Shift.keepsOut s = true) (h : shift n shifts = some m) :
    isUnreached m = false := by
  induction shifts with
  | nil => cases h
  | cons s rest ih =>
    rw [shift] at h
    split at h
    · cases h
    rename_i hFirst
    split at h
    · rename_i hInside
      cases h
      have hLast := of_decide_eq_true (Bool.and_eq_true_iff.mp hInside).1
      rw [Bool.eq_false_iff, ne_eq, isUnreached_iff]
      rintro ⟨r, hr, hLow, hHigh⟩
      -- the whole range of the shift lies on one side of each of the ranges
      have hApart := List.all_eq_true.mp (hTable s List.mem_cons_self) r hr
      have hPositive : ∀ r ∈ unreachedRanges, 0 < r.1 := by decide
      have := hPositive r hr
      simp only [Bool.or_eq_true, decide_eq_true_eq] at hApart
      omega
    · exact ih (fun s hs => hTable s (List.mem_cons_of_mem _ hs)) h

theorem isUnreached_ofNat {n : Nat} (h : isUnreached n = false) :
    isUnreached (Char.ofNat n).toNat = false := by
  by_cases hValid : n.isValidChar
  · rw [Char.ofNat, dif_pos hValid]
    exact h
  · rw [Char.ofNat, dif_neg hValid]
    decide

/-- The images of a character are in none of the ranges. -/
theorem isUnreached_mapped {sequences : List (Nat × List Nat)} {shifts : List Shift} {c d : Char}
    {images : List Char} (hTable : keepsOut sequences shifts = true)
    (h : mapped? sequences shifts c = some images) (hd : d ∈ images) :
    isUnreached d.toNat = false := by
  obtain ⟨hShifts, hSequences⟩ := Bool.and_eq_true_iff.mp hTable
  unfold mapped? at h
  split at h
  · rename_i codes hCodes
    cases h
    obtain ⟨n, hn, rfl⟩ := List.mem_map.mp hd
    obtain ⟨before, after, hEntries, -⟩ := List.lookup_eq_some_iff.mp hCodes
    have hEntry := List.all_eq_true.mp hSequences (c.toNat, codes) (by simp [hEntries])
    exact isUnreached_ofNat (by simpa using List.all_eq_true.mp hEntry n hn)
  · obtain ⟨n, hn, rfl⟩ := Option.map_eq_some_iff.mp h
    rw [List.mem_singleton.mp hd]
    exact isUnreached_ofNat (isUnreached_shift (List.all_eq_true.mp hShifts) hn)

-- ---------------------------------------------------------------------------
-- One character
-- ---------------------------------------------------------------------------

variable {c d : Char}

theorem eq_of_mem_getD {images : Option (List Char)} {others : List Char}
    (hImages : ∀ found, images = some found → ∀ d ∈ found, isUnreached d.toNat = false)
    (hOthers : d ∈ others → d = c) (h : d ∈ images.getD others)
    (hd : isUnreached d.toNat = true) : d = c := by
  cases images with
  | none => exact hOthers h
  | some found =>
    rw [hImages found rfl d h] at hd
    cases hd

theorem eq_of_mem_upperOf (h : d ∈ upperOf c) (hd : isUnreached d.toNat = true) : d = c :=
  eq_of_mem_getD (fun _ hFound _ => isUnreached_mapped keepsOut_tables.1 hFound)
    List.mem_singleton.mp h hd

theorem eq_of_mem_lowerOf (h : d ∈ lowerOf c) (hd : isUnreached d.toNat = true) : d = c :=
  eq_of_mem_getD (fun _ hFound _ => isUnreached_mapped keepsOut_tables.2.1 hFound)
    List.mem_singleton.mp h hd

theorem eq_of_mem_titleOf (h : d ∈ titleOf c) (hd : isUnreached d.toNat = true) : d = c :=
  eq_of_mem_getD (fun _ hFound _ => isUnreached_mapped keepsOut_tables.2.2 hFound)
    (fun hUpper => eq_of_mem_upperOf hUpper hd) h hd

theorem mem_titleOf_self (h : d ∈ titleOf c) (hd : isUnreached d.toNat = true) : d ∈ titleOf d := by
  rwa [← eq_of_mem_titleOf h hd] at h

/-- Every character has an image. -/
theorem getD_ne_nil {sequences : List (Nat × List Nat)} {shifts : List Shift} {others : List Char}
    (hTable : ∀ entry ∈ sequences, entry.2 ≠ []) (hOthers : others ≠ []) :
    (mapped? sequences shifts c).getD others ≠ [] := by
  unfold mapped?
  split
  · rename_i codes hCodes
    obtain ⟨before, after, hEntries, -⟩ := List.lookup_eq_some_iff.mp hCodes
    have hEntry := hTable (c.toNat, codes) (by simp [hEntries])
    simpa using hEntry
  · cases shift c.toNat shifts with
    | none => exact hOthers
    | some n => simp

theorem sequences_ne_nil : (∀ entry ∈ upperSequences, entry.2 ≠ []) ∧
    (∀ entry ∈ lowerSequences, entry.2 ≠ []) ∧ ∀ entry ∈ titleSequences, entry.2 ≠ [] := by
  decide +kernel

theorem upperOf_ne_nil (c : Char) : upperOf c ≠ [] := getD_ne_nil sequences_ne_nil.1 (by simp)

theorem lowerOf_ne_nil (c : Char) : lowerOf c ≠ [] := getD_ne_nil sequences_ne_nil.2.1 (by simp)

theorem titleOf_ne_nil (c : Char) : titleOf c ≠ [] :=
  getD_ne_nil sequences_ne_nil.2.2 (upperOf_ne_nil c)

/-- What a text in lower case holds is the image of a character, or a sigma. -/
theorem exists_of_mem_lowerAfter {before s : List Char} (h : d ∈ lowerAfter before s) :
    (∃ c ∈ s, d ∈ lowerOf c) ∨ d = 'ς' ∨ d = 'σ' := by
  induction s generalizing before with
  | nil => cases h
  | cons c rest ih =>
    rw [lowerAfter] at h
    rcases List.mem_append.mp h with hHead | hRest
    · split at hHead
      · rw [List.mem_singleton.mp hHead, lowerSigma]
        split
        · exact .inr (.inl rfl)
        · exact .inr (.inr rfl)
      · exact .inl ⟨c, List.mem_cons_self, hHead⟩
    · rcases ih hRest with ⟨x, hx, hImage⟩ | hSigma
      · exact .inl ⟨x, List.mem_cons_of_mem _ hx, hImage⟩
      · exact .inr hSigma

theorem mem_of_mem_lowerAfter {before s : List Char} (h : d ∈ lowerAfter before s)
    (hd : isUnreached d.toNat = true) : d ∈ s ∧ d ∈ lowerOf d := by
  rcases exists_of_mem_lowerAfter h with ⟨c, hc, hImage⟩ | rfl | rfl
  · obtain rfl := eq_of_mem_lowerOf hImage hd
    exact ⟨hc, hImage⟩
  -- neither form of the sigma is in one of the ranges
  · exact absurd hd (by decide)
  · exact absurd hd (by decide)

/-- A character that is its own lower case stays in a text. -/
theorem mem_lowerAfter_of_mem {before s : List Char} (hSame : lowerOf d = [d]) (hSigma : d ≠ 'Σ')
    (h : d ∈ s) : d ∈ lowerAfter before s := by
  induction s generalizing before with
  | nil => cases h
  | cons c rest ih =>
    rw [lowerAfter]
    rcases List.mem_cons.mp h with rfl | hRest
    · exact List.mem_append_left _ (by simp [hSigma, hSame])
    · exact List.mem_append_right _ (ih hRest)

end Unicode

open Unicode

-- ---------------------------------------------------------------------------
-- Texts
-- ---------------------------------------------------------------------------

section

variable {s : String} {d : Char}

theorem toList_capitalize {c : Char} {rest : List Char} (h : s.toList = c :: rest) :
    (capitalize s).toList = titleOf c ++ lowerAfter [c] rest := by
  rw [capitalize, h, String.toList_ofList]

theorem toList_upperFirst {c : Char} {rest : List Char} (h : s.toList = c :: rest) :
    (upperFirst s).toList = upperOf c ++ rest := by
  rw [upperFirst, h, String.toList_ofList]

theorem mem_of_mem_lowerCase (h : d ∈ (lowerCase s).toList) (hd : isUnreached d.toNat = true) :
    d ∈ s.toList := by
  rw [lowerCase, String.toList_ofList] at h
  exact (mem_of_mem_lowerAfter h hd).1

/-- Whether a character is the same in every case. -/
def Unicode.isFixed (c : Char) : Bool :=
  lowerOf c == [c] && titleOf c == [c] && upperOf c == [c] && c != 'Σ'

/-- A character that is the same in every case stays in a text. -/
theorem mem_capitalize_lowerCase (hFixed : isFixed d = true) (h : d ∈ s.toList) :
    d ∈ (capitalize (lowerCase s)).toList := by
  simp only [isFixed, Bool.and_eq_true, beq_iff_eq, bne_iff_ne] at hFixed
  obtain ⟨⟨⟨hLower, hTitle⟩, -⟩, hSigma⟩ := hFixed
  have hMem : d ∈ (lowerCase s).toList := by
    rw [lowerCase, String.toList_ofList]
    exact mem_lowerAfter_of_mem hLower hSigma h
  cases hList : (lowerCase s).toList with
  | nil =>
    rw [hList] at hMem
    cases hMem
  | cons c rest =>
    rw [toList_capitalize hList]
    rw [hList] at hMem
    rcases List.mem_cons.mp hMem with rfl | hRest
    · exact List.mem_append_left _ (by simp [hTitle])
    · exact List.mem_append_right _ (mem_lowerAfter_of_mem hLower hSigma hRest)

theorem mem_upperFirst (hFixed : isFixed d = true) (h : d ∈ s.toList) :
    d ∈ (upperFirst s).toList := by
  simp only [isFixed, Bool.and_eq_true, beq_iff_eq] at hFixed
  obtain ⟨⟨-, hUpper⟩, -⟩ := hFixed
  cases hList : s.toList with
  | nil =>
    rw [hList] at h
    cases h
  | cons c rest =>
    rw [toList_upperFirst hList]
    rw [hList] at h
    rcases List.mem_cons.mp h with rfl | hRest
    · exact List.mem_append_left _ (by simp [hUpper])
    · exact List.mem_append_right _ hRest

theorem mem_of_mem_capitalize (h : d ∈ (capitalize s).toList) (hd : isUnreached d.toNat = true) :
    d ∈ s.toList := by
  cases hList : s.toList with
  | nil =>
    rw [capitalize, hList] at h
    cases h
  | cons c rest =>
    rw [toList_capitalize hList] at h
    rcases List.mem_append.mp h with hHead | hRest
    · exact List.mem_cons.mpr (.inl (eq_of_mem_titleOf hHead hd))
    · exact List.mem_cons_of_mem _ (mem_of_mem_lowerAfter hRest hd).1

theorem mem_of_mem_upperFirst (h : d ∈ (upperFirst s).toList) (hd : isUnreached d.toNat = true) :
    d ∈ s.toList := by
  cases hList : s.toList with
  | nil =>
    rw [upperFirst, hList] at h
    cases h
  | cons c rest =>
    rw [toList_upperFirst hList] at h
    rcases List.mem_append.mp h with hHead | hRest
    · exact List.mem_cons.mpr (.inl (eq_of_mem_upperOf hHead hd))
    · exact List.mem_cons_of_mem _ hRest

-- ---------------------------------------------------------------------------
-- Counts
-- ---------------------------------------------------------------------------

/-- Whether a character is the same in every case, and no letter becomes it. -/
def Unicode.isCaseless (c : Char) : Bool := isFixed c && isUnreached c.toNat

theorem Unicode.isFixed_of_isCaseless (h : isCaseless d = true) : isFixed d = true :=
  (Bool.and_eq_true_iff.mp h).1

/-- A space and brackets have no case, and a sigma has one. -/
theorem Unicode.isCaseless_checked : [' ', '(', '\x7b', '\x7d'].all isCaseless = true ∧
    ['Σ', 'ς', 'σ'].all (!isCaseless ·) = true := by
  decide +kernel

theorem Unicode.isCaseless_of_mem (h : d ∈ [' ', '(', '\x7b', '\x7d']) : isCaseless d = true :=
  List.all_eq_true.mp isCaseless_checked.1 d h

section

variable {c : Char} {images : List Char}

theorem count_image (hSame : c = d → images = [d]) (hOther : d ∈ images → d = c) :
    images.count d = [c].count d := by
  by_cases h : c = d
  · rw [hSame h, h]
  · rw [List.count_eq_zero.mpr fun hMem => h (hOther hMem).symm]
    simp [h]

theorem count_lowerOf (h : isCaseless d = true) : (lowerOf c).count d = [c].count d := by
  simp only [isCaseless, isFixed, Bool.and_eq_true, beq_iff_eq] at h
  exact count_image (fun hSame => hSame ▸ h.1.1.1.1) fun hMem => eq_of_mem_lowerOf hMem h.2

theorem count_titleOf (h : isCaseless d = true) : (titleOf c).count d = [c].count d := by
  simp only [isCaseless, isFixed, Bool.and_eq_true, beq_iff_eq] at h
  exact count_image (fun hSame => hSame ▸ h.1.1.1.2) fun hMem => eq_of_mem_titleOf hMem h.2

theorem count_upperOf (h : isCaseless d = true) : (upperOf c).count d = [c].count d := by
  simp only [isCaseless, isFixed, Bool.and_eq_true, beq_iff_eq] at h
  exact count_image (fun hSame => hSame ▸ h.1.1.2) fun hMem => eq_of_mem_upperOf hMem h.2

theorem count_lowerAfter {before text : List Char} (h : isCaseless d = true) :
    (lowerAfter before text).count d = text.count d := by
  induction text generalizing before with
  | nil => rfl
  | cons c rest ih =>
    have hSplit : (c :: rest).count d = [c].count d + rest.count d := by
      rw [← List.count_append, List.singleton_append]
    rw [lowerAfter, List.count_append, ih, hSplit]
    refine congrArg (· + _) ?_
    split
    · -- a capital sigma has a case, and so has what it becomes
      rename_i hSigma
      obtain rfl := beq_iff_eq.mp hSigma
      have hNot : ∀ e ∈ ['Σ', 'ς', 'σ'], [e].count d = 0 := fun e he =>
        List.count_eq_zero.mpr fun hMem => by
          have hCased := List.all_eq_true.mp isCaseless_checked.2 e he
          rw [← List.mem_singleton.mp hMem, h] at hCased
          cases hCased
      rw [hNot 'Σ' (by simp), lowerSigma]
      split
      · exact hNot 'ς' (by simp)
      · exact hNot 'σ' (by simp)
    · exact count_lowerOf h

end

theorem count_capitalize (h : isCaseless d = true) :
    (capitalize s).toList.count d = s.toList.count d := by
  cases hList : s.toList with
  | nil => simp [capitalize, hList]
  | cons c rest =>
    rw [toList_capitalize hList, List.count_append, count_titleOf h, count_lowerAfter h,
      ← List.count_append, List.singleton_append]

/-- What has no case is found in a text with a capital as often as in the text. -/
theorem count_capitalize_lowerCase (h : isCaseless d = true) :
    (capitalize (lowerCase s)).toList.count d = s.toList.count d := by
  rw [count_capitalize h, lowerCase, String.toList_ofList, count_lowerAfter h]

theorem count_upperFirst (h : isCaseless d = true) :
    (upperFirst s).toList.count d = s.toList.count d := by
  cases hList : s.toList with
  | nil => simp [upperFirst, hList]
  | cons c rest =>
    rw [toList_upperFirst hList, List.count_append, count_upperOf h, ← List.count_append,
      List.singleton_append]

end

-- ---------------------------------------------------------------------------
-- ASCII
-- ---------------------------------------------------------------------------

section

variable {s : String} {c : Char}

theorem Unicode.ascii_checked : ∀ n : Fin 128,
    lowerOf (Char.ofNat n) = [(Char.ofNat n).toLower] ∧
    upperOf (Char.ofNat n) = [(Char.ofNat n).toUpper] ∧
    titleOf (Char.ofNat n) = [(Char.ofNat n).toUpper] := by decide +kernel

/-- Below 128 the tables know the ASCII letters only. -/
theorem Unicode.case_of_ascii (h : c.toNat < 128) :
    lowerOf c = [c.toLower] ∧ upperOf c = [c.toUpper] ∧ titleOf c = [c.toUpper] := by
  have hChecked := ascii_checked ⟨c.toNat, h⟩
  rwa [Char.ofNat_toNat] at hChecked

theorem Unicode.lowerAfter_of_ascii {before text : List Char} (h : ∀ c ∈ text, c.toNat < 128) :
    lowerAfter before text = text.map Char.toLower := by
  induction text generalizing before with
  | nil => rfl
  | cons c rest ih =>
    obtain ⟨hFirst, hRest⟩ := List.forall_mem_cons.mp h
    have hSigma : (c == 'Σ') = false := by
      rw [beq_eq_false_iff_ne]
      rintro rfl
      exact absurd hFirst (by decide)
    rw [lowerAfter, hSigma, if_neg Bool.false_ne_true, (case_of_ascii hFirst).1, ih hRest]
    rfl

/-- An ASCII text with a capital and small letters. -/
theorem capitalize_lowerCase_of_ascii {rest : List Char} (hText : s.toList = c :: rest)
    (h : ∀ d ∈ c :: rest, d.toNat < 128) (hLower : c.toLower.toNat < 128)
    (hRest : ∀ d ∈ rest, d.toLower.toNat < 128) :
    (capitalize (lowerCase s)).toList =
      c.toLower.toUpper :: rest.map fun d => d.toLower.toLower := by
  have hLowerCase : (lowerCase s).toList = c.toLower :: rest.map Char.toLower := by
    rw [lowerCase, String.toList_ofList, hText, lowerAfter_of_ascii h, List.map_cons]
  rw [toList_capitalize hLowerCase, (case_of_ascii hLower).2.2,
    lowerAfter_of_ascii (List.forall_mem_map.mpr hRest), List.map_map]
  rfl

end

end SparqlSelect
