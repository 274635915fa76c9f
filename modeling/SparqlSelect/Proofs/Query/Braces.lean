import SparqlSelect.Proofs.Fragment.Sealed
import SparqlSelect.Proofs.Query.Prologue
import SparqlSelect.Proofs.Query.Subqueries

/-!
# Curly braces in the text of a query

The braces of a query are those of its groups: each stands at the end of a line that holds nothing
but a keyword, and is closed on a line of its own. A line with a fragment must not bring others. So
the text is balanced once its literals are masked, if every line with a fragment is masked to one
without braces.

* `BracesBalanced` — no brace is closed that is not open, and none is left open.
* `Element.Contained`, `SelectQuery.HeadContained` — the lines of a query that hold fragments.
* `Group.lines_balanced` — the lines of a group are balanced, by induction on the tree.
* `masked_text` — the masked text of a query, line by line.
* `balanced_of_text` — the text of a query is balanced.
-/

namespace SparqlSelect

open Pattern

-- ---------------------------------------------------------------------------
-- Balanced texts
-- ---------------------------------------------------------------------------

/-- From left to right, curly braces are never closed more often than they were opened, and at the
end as often. -/
structure BracesBalanced (s : List Char) : Prop where
  never : ∀ t u, s = t ++ u → t.count '\x7d' ≤ t.count '\x7b'
  total : s.count '\x7d' = s.count '\x7b'

section

variable {s t : List Char}

/-- A text without a brace is balanced. -/
theorem bracesBalanced_of_none (h : ∀ c ∈ s, isBrace c = false) : BracesBalanced s := by
  have hNone {t : List Char} (ht : ∀ c ∈ t, isBrace c = false) :
      t.count '\x7b' = 0 ∧ t.count '\x7d' = 0 := by
    refine ⟨List.count_eq_zero.mpr fun hc => ?_, List.count_eq_zero.mpr fun hc => ?_⟩
    · exact absurd (ht _ hc) (by decide)
    · exact absurd (ht _ hc) (by decide)
  refine ⟨fun t u hSplit => ?_, ?_⟩
  · obtain ⟨hOpen, hClose⟩ := hNone (t := t) fun c hc => h c (hSplit ▸ List.mem_append_left _ hc)
    exact hClose ▸ Nat.zero_le _
  · obtain ⟨hOpen, hClose⟩ := hNone h
    rw [hOpen, hClose]

theorem BracesBalanced.append (hs : BracesBalanced s) (ht : BracesBalanced t) :
    BracesBalanced (s ++ t) := by
  refine ⟨fun x y hSplit => ?_, ?_⟩
  · rcases List.append_eq_append_iff.mp hSplit with ⟨w, rfl, hw⟩ | ⟨w, hw, -⟩
    · have hLeft := hs.total
      have hRight := ht.never w y hw
      simp only [List.count_append]
      omega
    · exact hs.never x w hw
  · have hLeft := hs.total
    have hRight := ht.total
    simp only [List.count_append]
    omega

/-- What is balanced is so in braces. -/
theorem BracesBalanced.wrap (h : BracesBalanced s) :
    BracesBalanced ('\x7b' :: (s ++ ['\x7d'])) := by
  have hOpen : ('\x7b' : Char) ≠ '\x7d' := by decide
  refine ⟨fun t u hSplit => ?_, ?_⟩
  · cases t with
    | nil => simp
    | cons c t =>
      obtain ⟨rfl, hTail⟩ := List.cons.inj hSplit
      rw [List.count_cons_of_ne hOpen, List.count_cons_self]
      rcases List.append_eq_append_iff.mp hTail with ⟨w, rfl, hw⟩ | ⟨w, hw, -⟩
      · -- at most the last brace comes after what is inside
        have hInside := h.total
        have hLast : w.count '\x7d' ≤ 1 := by
          have hCount := congrArg (List.count '\x7d') hw
          simp only [List.count_append, List.count_singleton_self] at hCount
          omega
        simp only [List.count_append]
        omega
      · have hInside := h.never t w hw
        omega
  · have hInside := h.total
    simp [hInside, hOpen, hOpen.symm]

/-- What is balanced with a line feed at its end is so without it. -/
theorem BracesBalanced.ofLine (h : BracesBalanced (s ++ ['\n'])) : BracesBalanced s := by
  refine ⟨fun t u hSplit => h.never t (u ++ ['\n']) (by rw [hSplit, List.append_assoc]), ?_⟩
  have hTotal := h.total
  simpa using hTotal

end

-- ---------------------------------------------------------------------------
-- Lines
-- ---------------------------------------------------------------------------

/-- Some lines as one text, its literals being masked. -/
def maskedLines (lines : List String) : List Char :=
  lines.flatMap fun l => maskFrom 0 l.toList ++ ['\n']

/-- Each line is masked on its own: no literal runs past a line's end. -/
theorem maskedLines_cons (l : String) (lines : List String) :
    maskedLines (l :: lines) = maskFrom 0 l.toList ++ '\n' :: maskedLines lines := by
  simp [maskedLines]

/-- Masking works line by line, so lines are masked apart. -/
theorem maskedLines_append (lines lines' : List String) :
    maskedLines (lines ++ lines') = maskedLines lines ++ maskedLines lines' :=
  List.flatMap_append

/-- Some lines open and close the same braces. -/
def LinesBalanced (lines : List String) : Prop := BracesBalanced (maskedLines lines)

section

variable {lines lines' : List String}

theorem LinesBalanced.append (h : LinesBalanced lines) (h' : LinesBalanced lines') :
    LinesBalanced (lines ++ lines') := by
  rw [LinesBalanced, maskedLines_append]
  exact BracesBalanced.append h h'

/-- Lines that contain their literals and have no brace of their own are balanced. -/
theorem balanced_of_contained (h : ∀ l ∈ lines, Contained l.toList) : LinesBalanced lines := by
  refine bracesBalanced_of_none fun c hc => ?_
  obtain ⟨l, hl, hc⟩ := List.mem_flatMap.mp hc
  rcases List.mem_append.mp hc with hc | hc
  · exact h l hl c hc
  · rw [List.mem_singleton.mp hc]
    decide

/-- Pieces that are balanced one by one are balanced one after another. -/
theorem LinesBalanced.flatMap {α : Type} {write : α → List String} {xs : List α}
    (h : ∀ x ∈ xs, LinesBalanced (write x)) : LinesBalanced (xs.flatMap write) := by
  induction xs with
  | nil => exact balanced_of_contained (by simp)
  | cons x rest ih =>
    obtain ⟨hFirst, hRest⟩ := List.forall_mem_cons.mp h
    exact hFirst.append (ih hRest)

/-- Lines in braces that stand at the end of a line with a keyword and on a line of their own. -/
theorem LinesBalanced.block (h : LinesBalanced lines) (depth : Int) (keyword : String)
    (hKeyword : keyword.toList.any (fun c => startsLiteral c || isBrace c) = false) :
    LinesBalanced (indented depth (keyword ++ "\x7b") :: lines ++ [indented depth "\x7d"]) := by
  have hIndent : (List.replicate (2 * depth.toNat) ' ').any startsLiteral = false := by
    simp [startsLiteral]
  have hSpaces : ∀ c ∈ List.replicate (2 * depth.toNat) ' ', isBrace c = false := by
    intro c hc
    rw [(List.mem_replicate.mp hc).2]
    decide
  have hPlain : keyword.toList.any startsLiteral = false := by
    simp only [List.any_eq_false, Bool.or_eq_true, not_or] at hKeyword ⊢
    exact fun c hc => (hKeyword c hc).1
  have hNoBrace : ∀ c ∈ keyword.toList, isBrace c = false := by
    simp only [List.any_eq_false, Bool.or_eq_true, not_or] at hKeyword
    exact fun c hc => by simpa using (hKeyword c hc).2
  -- masking leaves the two lines as they are, so the block is a pair of braces around its lines
  have hOpen : maskFrom 0 (indented depth (keyword ++ "\x7b")).toList =
      List.replicate (2 * depth.toNat) ' ' ++ keyword.toList ++ ['\x7b'] := by
    rw [toList_indented, maskFrom_append hIndent, String.toList_append, maskFrom_append hPlain,
      List.append_assoc]
    rfl
  have hClose : maskFrom 0 (indented depth "\x7d").toList =
      List.replicate (2 * depth.toNat) ' ' ++ ['\x7d'] := by
    rw [toList_indented, maskFrom_append hIndent]
    rfl
  have hAll : maskedLines (indented depth (keyword ++ "\x7b") :: lines ++ [indented depth "\x7d"]) =
      List.replicate (2 * depth.toNat) ' ' ++ keyword.toList ++
        ('\x7b' :: (['\n'] ++ maskedLines lines ++ List.replicate (2 * depth.toNat) ' ' ++
          ['\x7d'])) ++ ['\n'] := by
    simp [maskedLines, hOpen, hClose]
  have hLine : BracesBalanced ['\n'] := bracesBalanced_of_none (by simp [isBrace])
  rw [LinesBalanced, hAll]
  refine ((bracesBalanced_of_none ?_).append ?_).append hLine
  · exact List.forall_mem_append.mpr ⟨hSpaces, hNoBrace⟩
  · exact ((hLine.append h).append (bracesBalanced_of_none hSpaces)).wrap

/-- Indentation adds no brace and no literal. -/
theorem contained_indented {line : String} (depth : Int) (h : Contained line.toList) :
    Contained (indented depth line).toList := by
  rw [toList_indented, Contained, maskFrom_append (by simp [startsLiteral])]
  refine List.forall_mem_append.mpr ⟨fun c hc => ?_, h⟩
  rw [(List.mem_replicate.mp hc).2]
  decide

/-- A line without braces outside its literals is balanced by itself. -/
theorem linesBalanced_line {line : String} (depth : Int) (h : Contained line.toList) :
    LinesBalanced [indented depth line] := by
  refine balanced_of_contained fun l hl => ?_
  rw [List.mem_singleton.mp hl]
  exact contained_indented depth h

/-- The masked text of some lines is their masked lines, line by line. -/
theorem maskFrom_intercalate (hSome : lines ≠ []) :
    maskFrom 0 ("\n".intercalate lines).toList ++ ['\n'] = maskedLines lines := by
  induction lines with
  | nil => exact absurd rfl hSome
  | cons first rest ih =>
    cases rest with
    | nil => simp [maskedLines]
    | cons second rest =>
      -- a line feed stands behind the first line because a second one follows
      have hText : ("\n".intercalate (first :: second :: rest)).toList =
          first.toList ++ '\n' :: ("\n".intercalate (second :: rest)).toList := by
        rw [String.intercalate_cons_of_ne_nil (by simp)]
        simp
      rw [maskedLines_cons, ← ih (by simp), hText, maskFrom_line, List.append_assoc,
        List.cons_append]

/-- The braces in some lines are those in the lines that hold braces at all. -/
theorem filter_maskedLines (lines : List String) : (maskedLines lines).filter isBrace =
    (maskedLines (lines.filter fun l => l.toList.any isBrace)).filter isBrace := by
  induction lines with
  | nil => rfl
  | cons l lines ih =>
    have hFeed : isBrace '\n' = false := by decide
    rw [maskedLines_cons, List.filter_append, List.filter_cons_of_neg (by simp [hFeed]), ih]
    rw [List.filter_cons]
    split
    · rw [maskedLines_cons, List.filter_append, List.filter_cons_of_neg (by simp [hFeed])]
    · -- a line without braces leaves none in its mask
      rename_i hNone
      have hBraceless : Braceless l := by simpa [Braceless] using hNone
      have hMasked : (maskFrom 0 l.toList).filter isBrace = [] :=
        List.filter_eq_nil_iff.mpr fun c hc => by simp [hBraceless.contained c hc]
      rw [hMasked, List.nil_append]

end

-- ---------------------------------------------------------------------------
-- Trees
-- ---------------------------------------------------------------------------

/-- The line of an element, if it has one, is masked to one without braces. -/
def Element.Contained : Element → Prop
  | .triple t => SparqlSelect.Contained t.text.toList
  | .filter e => SparqlSelect.Contained ("FILTER(" ++ e ++ ")").toList
  | .bind b => SparqlSelect.Contained b.text.toList
  | .optional _ | .union _ | .nested _ => True

/-- The lines of a query around its pattern are masked to lines without braces. -/
structure SelectQuery.HeadContained (q : SelectQuery) : Prop where
  selection : Contained (selectLine q.projection q.distinct).toList
  modifiers : ∀ m ∈ q.modifiers, Contained m.text.toList

/-- The lines around a pattern bring no braces if the items and the modifiers have none. -/
theorem headContained_of_braceless {q : SelectQuery}
    (hItems : ∀ item ∈ q.projection, Braceless item)
    (hModifiers : ∀ m ∈ q.modifiers, Braceless m.text) : q.HeadContained where
  selection := by
    have hKeyword : Braceless "SELECT " := by decide
    have hDistinct : Braceless (if q.distinct then "DISTINCT " else "") := by
      split <;> decide
    refine ((hKeyword.append hDistinct).append ?_).contained
    split
    · decide
    · exact braceless_intercalate (by decide) hItems
  modifiers m hm := (hModifiers m hm).contained

/-- All lines with fragments in a group are masked to lines without braces. -/
structure Group.Contained (g : Group) : Prop where
  elements : g.Everywhere Element.Contained
  queries : g.Everywhere (Element.QueriesAre SelectQuery.HeadContained)

/-- A filter whose expression is sealed is contained in its line. -/
theorem filter_contained {e : String} (h : Sealed e.toList) : (Element.filter e).Contained := by
  have hLine : ("FILTER(" ++ e ++ ")").toList = "FILTER(".toList ++ e.toList ++ ")".toList := by
    simp
  change SparqlSelect.Contained ("FILTER(" ++ e ++ ")").toList
  rw [hLine]
  exact contained_of_sealed (((sealed_of_inert (by decide)).append h).append
    (sealed_of_inert (by decide)))

/-- A union of balanced branches is balanced: each branch is opened and closed on lines of its own.
-/
theorem Branch.unionLines_balanced {depth : Int} {branches : List Branch}
    (h : ∀ b ∈ branches, LinesBalanced (b.lines depth)) :
    LinesBalanced (Branch.unionLines depth branches) := by
  have hUnion : LinesBalanced [indented depth "UNION"] :=
    linesBalanced_line depth (Braceless.contained (by decide))
  cases branches with
  | nil => exact balanced_of_contained (by simp [Branch.unionLines])
  | cons b rest =>
    obtain ⟨hb, hRest⟩ := List.forall_mem_cons.mp h
    rw [Branch.unionLines, Branch.furtherLines_eq]
    exact hb.append (LinesBalanced.flatMap fun b hb => hUnion.append (hRest b hb))

/-- The lines of a query are balanced if those of its pattern are. -/
theorem SelectQuery.lines_balanced {q : SelectQuery} {depth : Int} (hHead : q.HeadContained)
    (h : LinesBalanced (q.body.bodyLines (depth + 1))) : LinesBalanced (q.lines depth) := by
  obtain ⟨prefixes, projection, body, modifiers, distinct⟩ := q
  have hSelect := linesBalanced_line depth hHead.selection
  have hModifiers :
      LinesBalanced ((Modifier.sorted modifiers).map fun m => indented depth m.text) := by
    rw [List.map_eq_flatMap]
    exact LinesBalanced.flatMap fun m hm =>
      linesBalanced_line depth (hHead.modifiers m (Modifier.mem_of_mem_sorted hm))
  have hWhere := h.block depth "WHERE " (by decide)
  simpa [SelectQuery.lines] using (hSelect.append hWhere).append hModifiers

/-- The lines of every part of a pattern are balanced if those with fragments bring no braces. -/
theorem treeInduction_linesBalanced :
    TreeInduction (fun g => g.Contained → ∀ depth, LinesBalanced (g.bodyLines depth))
      (fun e => e.Everywhere Element.Contained →
        e.Everywhere (Element.QueriesAre SelectQuery.HeadContained) →
        ∀ depth, LinesBalanced (e.lines depth))
      (fun b => b.Everywhere Element.Contained →
        b.Everywhere (Element.QueriesAre SelectQuery.HeadContained) →
        b.QueryIs SelectQuery.HeadContained → ∀ depth, LinesBalanced (b.lines depth)) where
  members origin elements ih h depth := by
    have hElements := Group.everywhere_mk.mp h.elements
    have hQueries := Group.everywhere_mk.mp h.queries
    rw [Group.bodyLines, Element.linesOfAll_eq]
    exact LinesBalanced.flatMap fun e he => ih e he (hElements e he) (hQueries e he) depth
  triple t h _ depth := linesBalanced_line depth (Element.everywhere_triple.mp h)
  filter e h _ depth := linesBalanced_line depth (Element.everywhere_filter.mp h)
  bind b h _ depth := linesBalanced_line depth (Element.everywhere_bind.mp h)
  optional g ih h hQueries depth := by
    have hBody := ih ⟨(Element.everywhere_optional.mp h).2,
      (Element.everywhere_optional.mp hQueries).2⟩ (depth + 1)
    -- a block adds one opening and one closing brace around lines that are balanced
    exact hBody.block depth "OPTIONAL " (by decide)
  union branches ih h hQueries depth := by
    obtain ⟨-, hBranches⟩ := Element.everywhere_union.mp h
    obtain ⟨hHeads, hInner⟩ := Element.everywhere_union.mp hQueries
    exact Branch.unionLines_balanced fun b hb => ih b hb (hBranches b hb) (hInner b hb)
      (Element.queriesAre_union.mp hHeads b hb) depth
  nested b ih h hQueries depth := by
    obtain ⟨hHead, hInner⟩ := Element.everywhere_nested.mp hQueries
    exact ih (Element.everywhere_nested.mp h).2 hInner (Element.queriesAre_nested.mp hHead) depth
  group g ih h hQueries _ depth := (ih ⟨h, hQueries⟩ (depth + 1)).block depth "" (by decide)
  select q ih h hQueries hHead depth := by
    have hBody := ih ⟨Branch.everywhere_select.mp h, Branch.everywhere_select.mp hQueries⟩
    exact (SelectQuery.lines_balanced (Branch.queryIs_select.mp hHead)
      (hBody (depth + 1 + 1))).block depth "" (by decide)

/-- The lines of a group are balanced if those with fragments bring no braces. -/
theorem Group.lines_balanced :
    ∀ g : Group, g.Contained → ∀ depth, LinesBalanced (g.bodyLines depth) :=
  treeInduction_linesBalanced.onGroup

/-- The declared prefixes are some of the table's. -/
theorem usedPrefixes_subset {body : String} {prefixes used : List (Json × Json)}
    (h : usedPrefixes body prefixes = .ok used) : used ⊆ prefixes := by
  induction prefixes generalizing used with
  | nil =>
    cases h
    exact List.Subset.refl _
  | cons entry rest ih =>
    obtain ⟨name, iri⟩ := entry
    cases name with
    | str n =>
      obtain ⟨others, hOthers, h⟩ := bind_eq_ok_iff.mp h
      cases h
      -- a prefix that is not used is left out, the others keep their order
      split
      · exact List.cons_subset_cons _ (ih hOthers)
      · exact List.Subset.trans (ih hOthers) (List.subset_cons_self ..)
    | _ => cases h

/-- The masked text of a query is the masked lines of some declarations of its prefixes and of the
query itself. -/
theorem masked_text {q : SelectQuery} {text : String} (h : q.text = .ok text) :
    ∃ used ⊆ q.prefixes, maskLiterals text.toList ++ ['\n'] =
      maskedLines (used.map (fun entry => declaration entry.1 entry.2) ++ q.lines 0) := by
  unfold SelectQuery.text at h
  split at h
  · cases h
  obtain ⟨used, hUsed, h⟩ := bind_eq_ok_iff.mp h
  cases h
  -- a query has at least its first line, so its text is not the empty one
  have hSome : q.lines 0 ≠ [] := by
    obtain ⟨prefixes, projection, body, modifiers, distinct⟩ := q
    simp [SelectQuery.lines]
  have hBodyText : maskedLines [q.bodyText] = maskedLines (q.lines 0) := by
    rw [← maskFrom_intercalate hSome]
    simp [maskedLines, SelectQuery.bodyText]
  refine ⟨used, usedPrefixes_subset hUsed, ?_⟩
  rw [maskLiterals, maskFrom_intercalate (by simp), maskedLines_append, maskedLines_append,
    hBodyText]

/-- **Balanced texts.** The text of a query is balanced once its literals are masked, if neither the
lines with its fragments nor the declarations of its prefixes bring braces. -/
theorem balanced_of_text {q : SelectQuery} {text : String} (h : q.text = .ok text)
    (hPrefixes : ∀ entry ∈ q.prefixes, Contained (declaration entry.1 entry.2).toList)
    (hHead : q.HeadContained) (hBody : q.body.Contained) :
    BracesBalanced (maskLiterals text.toList) := by
  obtain ⟨used, hUsed, hMasked⟩ := masked_text h
  refine BracesBalanced.ofLine ?_
  rw [hMasked]
  refine LinesBalanced.append (balanced_of_contained fun l hl => ?_)
    (q.lines_balanced hHead (q.body.lines_balanced hBody 1))
  obtain ⟨entry, hEntry, rfl⟩ := List.mem_map.mp hl
  exact hPrefixes entry (hUsed hEntry)

end SparqlSelect
