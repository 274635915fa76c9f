import SparqlSelect.Fragment.Kind
import SparqlSelect.Proofs.Filter.Merging
import SparqlSelect.Proofs.Fragment.Trees

/-!
# What merged expressions mean

An expression that bounds are merged to is read with the grammar of comparisons, in which `&&` binds
tighter than `||` and a literal may hold anything. A pair stands in brackets and everything else is
joined by `||`, so the tree that is read has the pairs and the bounds without a partner as its
operands, and its truth is the disjunction of theirs.

The parts are joined from left to right, as the reader does: the induction is on the parts that are
still to be joined, with any condition in front of them. No bracket stands in another one, so there
is no limit under which the reader would not find this out.

* `textHolds`, `MergedPart.holds` — the truth of a fragment and of a part.
* `Means` — a shallow tree that is read from a text, and its truth.
* `exists_means_part`, `exists_means_joined` — the trees of one part and of all parts.
* `merged_meaning` — what the merged expression is accepted as and what it means.
-/

namespace SparqlSelect

open Comparison

/-- The truth of the text of a condition, given the truth of comparisons. -/
def textHolds (truth : Single → Bool) (text : String) : Bool :=
  (parse? text.toList).any (·.value truth)

/-- The truth of a part: both bounds of an interval have to hold, one of two bounds that wrap
around. -/
def MergedPart.holds (truth : Single → Bool) : MergedPart → Bool
  | pair lower upper true => textHolds truth lower.fragment && textHolds truth upper.fragment
  | pair lower upper false => textHolds truth lower.fragment || textHolds truth upper.fragment
  | alone b => textHolds truth b.fragment

/-- A text writes a tree that is read back from it, has no bracket in another one and has a certain
truth. -/
structure Means (text : String) (tree : Tree) (holds : (Single → Bool) → Bool) : Prop where
  isWriting : tree.IsWriting text.toList
  leansLeft : tree.leansLeft = true
  depth : tree.depth ≤ 1
  value : ∀ truth, tree.value truth = holds truth

section

variable {text : String} {tree : Tree} {holds : (Single → Bool) → Bool}
  {bounds : List Bound} {parts : List MergedPart} {part : MergedPart}

theorem Means.parse (h : Means text tree holds) : parse? text.toList = some tree :=
  parse?_of_isWriting h.leansLeft h.isWriting

theorem Means.textHolds (h : Means text tree holds) (truth : Single → Bool) :
    textHolds truth text = holds truth := by
  rw [SparqlSelect.textHolds, h.parse, Option.any_some, h.value]

/-- An accepted comparison is read as one, and its truth is that of its text. -/
theorem exists_means_comparison (h : isComparison text.toList = true) :
    ∃ c, Means text (.comparison c) (textHolds · text) := by
  obtain ⟨tree, hWriting⟩ := exists_of_isComparison h
  have hSingle : tree.isSingle = true := hWriting.isComparison_eq.symm.trans h
  cases tree with
  | comparison c =>
    refine ⟨c, hWriting, rfl, Nat.zero_le 1, fun truth => ?_⟩
    rw [textHolds, parse?_of_isWriting rfl hWriting]
    rfl
  | joined _ _ _ => cases hSingle
  | bracketed _ => cases hSingle

/-- A pair is read as two comparisons that are joined in brackets. -/
theorem exists_means_pair {lower upper : Bound} (hLower : isComparison lower.fragment.toList = true)
    (hUpper : isComparison upper.fragment.toList = true) (isInterval : Bool) :
    ∃ inner, Means (MergedPart.pair lower upper isInterval).text (.bracketed inner)
      ((MergedPart.pair lower upper isInterval).holds ·) := by
  obtain ⟨c, hc⟩ := exists_means_comparison hLower
  obtain ⟨c', hc'⟩ := exists_means_comparison hUpper
  -- the two connectives are written and evaluated by lemmas of their own
  cases isInterval with
  | true =>
    refine ⟨.joined (.comparison c) .and (.comparison c'), ?_, rfl, Nat.le_refl 1, fun truth => ?_⟩
    · simpa [MergedPart.text, Connective.text] using
        (hc.isWriting.join hc'.isWriting .and).bracket
    · rw [Tree.value_bracketed, Tree.value_and rfl rfl, hc.value, hc'.value, MergedPart.holds]
  | false =>
    refine ⟨.joined (.comparison c) .or (.comparison c'), ?_, rfl, Nat.le_refl 1, fun truth => ?_⟩
    · simpa [MergedPart.text, Connective.text] using
        (hc.isWriting.join hc'.isWriting .or).bracket
    · rw [Tree.value_bracketed, Tree.value_or, hc.value, hc'.value, MergedPart.holds]

/-- A part is read as an operand, and as a comparison only if it is a bound that stands alone. -/
theorem exists_means_part (h : ∀ b ∈ part.bounds, isComparison b.fragment.toList = true) :
    ∃ tree, Means part.text tree (part.holds ·) ∧ tree.isOperand = true ∧
      tree.isSingle = decide (part.bounds.length = 1) := by
  cases part with
  | pair lower upper isInterval =>
    obtain ⟨inner, hInner⟩ := exists_means_pair (h lower (by simp [MergedPart.bounds]))
      (h upper (by simp [MergedPart.bounds])) isInterval
    exact ⟨.bracketed inner, hInner, rfl, rfl⟩
  | alone b =>
    obtain ⟨c, hc⟩ := exists_means_comparison (h b (by simp [MergedPart.bounds]))
    exact ⟨.comparison c, hc, rfl, rfl⟩

/-- The first two texts of a joined list can be joined before the others are. -/
theorem intercalate_cons_cons (separator s t : String) (texts : List String) :
    separator.intercalate (s :: t :: texts) =
      separator.intercalate ((s ++ separator ++ t) :: texts) := by
  rw [String.intercalate_cons_of_ne_nil (by simp)]
  cases texts with
  | nil => rw [String.intercalate_singleton, String.intercalate_singleton]
  | cons u texts =>
    have hSome : u :: texts ≠ [] := by simp
    rw [String.intercalate_cons_of_ne_nil hSome, String.intercalate_cons_of_ne_nil hSome]
    simp only [String.append_assoc]

/-- Parts behind a condition are read as a disjunction of it and of all of them. -/
theorem exists_means_joined (hTree : Means text tree holds)
    (h : ∀ part ∈ parts, ∀ b ∈ part.bounds, isComparison b.fragment.toList = true) :
    ∃ joined, Means (" || ".intercalate (text :: parts.map (·.text))) joined
        (fun truth => holds truth || parts.any (·.holds truth)) ∧
      joined.isSingle = (tree.isSingle && parts.isEmpty) := by
  -- induction on the parts behind the first: each of them joins the tree from the right
  induction parts generalizing text tree holds with
  | nil =>
    refine ⟨tree, ?_, by simp⟩
    simpa using hTree
  | cons part parts ih =>
    obtain ⟨hPart, hParts⟩ := List.forall_mem_cons.mp h
    obtain ⟨right, hRight, hOperand, -⟩ := exists_means_part hPart
    have hJoined : Means (text ++ " || " ++ part.text) (.joined tree .or right)
        (fun truth => holds truth || part.holds truth) := by
      refine ⟨?_, by simp [Tree.leansLeft, hTree.leansLeft, hRight.leansLeft, hOperand],
        Nat.max_le.mpr ⟨hTree.depth, hRight.depth⟩,
        fun truth => by rw [Tree.value_or, hTree.value, hRight.value]⟩
      simpa [Connective.text] using hTree.isWriting.join hRight.isWriting .or
    obtain ⟨joined, hAll, hSingle⟩ := ih hJoined hParts
    refine ⟨joined, ?_, by rw [hSingle, Tree.isSingle, List.isEmpty_cons, Bool.and_false]; rfl⟩
    rw [List.map_cons, intercalate_cons_cons]
    simpa [Bool.or_assoc] using hAll

/-- Every part has a bound. -/
theorem length_bounds_pos (part : MergedPart) : 0 < part.bounds.length := by
  cases part <;> simp [MergedPart.bounds]

/-- Parts are read as one comparison exactly if they have just one bound. -/
theorem exists_means_parts (hSome : parts ≠ [])
    (h : ∀ part ∈ parts, ∀ b ∈ part.bounds, isComparison b.fragment.toList = true) :
    ∃ tree, Means (" || ".intercalate (parts.map (·.text))) tree
        (fun truth => parts.any (·.holds truth)) ∧
      tree.isSingle = decide ((parts.flatMap (·.bounds)).length = 1) := by
  cases parts with
  | nil => exact absurd rfl hSome
  | cons part parts =>
    obtain ⟨hPart, hParts⟩ := List.forall_mem_cons.mp h
    obtain ⟨first, hFirst, -, hSingle⟩ := exists_means_part hPart
    obtain ⟨tree, hTree, hTreeSingle⟩ := exists_means_joined hFirst hParts
    refine ⟨tree, hTree, ?_⟩
    rw [hTreeSingle, hSingle]
    -- a single part has one bound or two, and more parts have more bounds
    cases parts with
    | nil => simp
    | cons second rest =>
      have hFirstBound := length_bounds_pos part
      have hSecondBound := length_bounds_pos second
      have hMore : ((part :: second :: rest).flatMap (·.bounds)).length ≠ 1 := by
        simp only [List.flatMap_cons, List.length_append]
        omega
      rw [List.isEmpty_cons, Bool.and_false, decide_eq_false hMore]

/-- The bounds of parts are among those that were merged. -/
theorem mem_of_mem_parts (hParts : mergedParts bounds = .ok parts) {b : Bound}
    (hPart : part ∈ parts) (hb : b ∈ part.bounds) : b ∈ bounds := by
  have hMem : b ∈ lowersOf bounds ++ uppersOf bounds :=
    (mergedParts_perm hParts).mem_iff.mp (List.mem_flatMap.mpr ⟨part, hPart, hb⟩)
  rcases List.mem_append.mp hMem with hMem | hMem
  · exact List.mem_of_mem_filter hMem
  · exact List.mem_of_mem_filter hMem

/-- A bound that points in a direction is among the lower or the upper ones. -/
theorem directed_ne_nil (h : ∃ b ∈ bounds, (b.isLower || b.isUpper) = true) :
    lowersOf bounds ++ uppersOf bounds ≠ [] := by
  obtain ⟨b, hb, hDirected⟩ := h
  suffices hMem : b ∈ lowersOf bounds ++ uppersOf bounds from List.ne_nil_of_mem hMem
  cases hLower : b.isLower with
  | true => exact List.mem_append_left _ (List.mem_filter.mpr ⟨hb, hLower⟩)
  | false =>
    refine List.mem_append_right _ (List.mem_filter.mpr ⟨hb, ?_⟩)
    simpa [hLower] using hDirected

/-- Parts of accepted comparisons are written as an expression with their truth. -/
theorem exists_means_merged (hAccepted : ∀ b ∈ bounds, isComparison b.fragment.toList = true)
    (hDirected : ∃ b ∈ bounds, (b.isLower || b.isUpper) = true)
    (hParts : mergedParts bounds = .ok parts) :
    ∃ text tree, mergedExpression bounds = .ok (some text) ∧
      Means text tree (fun truth => parts.any (·.holds truth)) ∧
      tree.isSingle = decide ((lowersOf bounds ++ uppersOf bounds).length = 1) := by
  have hSome : parts ≠ [] := by
    rw [ne_eq, mergedParts_eq_nil_iff hParts, ← List.append_eq_nil_iff]
    exact directed_ne_nil hDirected
  obtain ⟨tree, hTree, hSingle⟩ := exists_means_parts hSome
    fun part hPart b hb => hAccepted b (mem_of_mem_parts hParts hPart hb)
  refine ⟨_, tree, ?_, hTree, by rw [hSingle, (mergedParts_perm hParts).length_eq]⟩
  rw [mergedExpression_eq_map, hParts]
  simp [Except.map, joinedParts, hSome]

end

/-- **A merged expression means what was asked.** Bounds whose fragments are comparisons, one of
which points in a direction, are merged to an expression if the values of every pair are in range.
It is a single comparison if just one of the bounds points in a direction, and a nested one, within
any limit to brackets, if more do. Read by the grammar, it holds exactly if one of its parts does:
both bounds of an interval, one of two bounds that wrap around, or a bound without a partner. If a
value of a pair is out of range, there is no expression. -/
theorem merged_meaning (bounds : List Bound)
    (hAccepted : ∀ b ∈ bounds, Kind.comparison.accepts b.fragment.toList = true)
    (hDirected : ∃ b ∈ bounds, (b.isLower || b.isUpper) = true) :
    (PairsInRange bounds →
      ∃ parts text tree, mergedParts bounds = .ok parts ∧
        mergedExpression bounds = .ok (some text) ∧
        Kind.comparison.accepts text.toList =
          decide ((lowersOf bounds ++ uppersOf bounds).length = 1) ∧
        (∀ limit, Kind.nestedComparison.acceptsWithin limit text.toList =
          .ok !decide ((lowersOf bounds ++ uppersOf bounds).length = 1)) ∧
        tree.IsWriting text.toList ∧ parse? text.toList = some tree ∧
        ∀ truth, tree.value truth = parts.any (·.holds truth)) ∧
      (¬ PairsInRange bounds → mergedExpression bounds = .error .tooLarge) := by
  refine ⟨fun hRange => ?_, mergedExpression_of_not_pairsInRange⟩
  obtain ⟨parts, hParts⟩ := (exists_mergedParts_iff bounds).mpr hRange
  obtain ⟨text, tree, hText, hMeans, hSingle⟩ := exists_means_merged hAccepted hDirected hParts
  have hComparison : isComparison text.toList = tree.isSingle := hMeans.isWriting.isComparison_eq
  have hNested (limit : Nat) : nestedWithin limit text.toList = .ok !tree.isSingle :=
    hMeans.isWriting.nestedWithin_eq (Nat.le_trans hMeans.depth (Nat.le_add_left 1 limit))
  rw [hSingle] at hComparison hNested
  exact ⟨parts, text, tree, hParts, hText, hComparison, hNested, hMeans.isWriting, hMeans.parse,
    hMeans.value⟩

/-- Bearings around north, and another lower bound that has no partner. -/
def bearings : List Bound :=
  [⟨.int 300, ">", "?x > 300"⟩, ⟨.int 60, "<", "?x < 60"⟩, ⟨.int 20, ">=", "?x >= 20"⟩]

theorem pairsInRange_bearings : PairsInRange bearings := by
  have hPairs : (lowersOf bearings).zip (uppersOf bearings) =
      [(⟨.int 300, ">", "?x > 300"⟩, ⟨.int 60, "<", "?x < 60"⟩)] := by rfl
  intro p hp
  rw [hPairs, List.mem_singleton] at hp
  subst hp
  decide +kernel

theorem mergedParts_bearings : mergedParts bearings = .ok
    [.pair ⟨.int 300, ">", "?x > 300"⟩ ⟨.int 60, "<", "?x < 60"⟩ false,
      .alone ⟨.int 20, ">=", "?x >= 20"⟩] := by
  have hWraps : exceeds (.int 60) (.int 300) = .ok false := by decide +kernel
  have hLowers : lowersOf bearings =
      [⟨.int 300, ">", "?x > 300"⟩, ⟨.int 20, ">=", "?x >= 20"⟩] := by rfl
  have hUppers : uppersOf bearings = [⟨.int 60, "<", "?x < 60"⟩] := by rfl
  rw [mergedParts, partsOfQueues, hLowers, hUppers]
  simp [MergedPart.ofPair, hWraps, unpaired, Except.map, bind, Except.bind, pure, Except.pure]

/-- One of the bearings is enough, and so is the other lower bound. -/
theorem bearings_mean :
    (∀ b ∈ bearings, Kind.comparison.accepts b.fragment.toList = true) ∧ PairsInRange bearings ∧
      ∃ text tree, mergedExpression bearings = .ok (some text) ∧
        Kind.nestedComparison.acceptsWithin 0 text.toList = .ok true ∧
        parse? text.toList = some tree ∧
        ∀ truth, tree.value truth = (textHolds truth "?x > 300" || textHolds truth "?x < 60" ||
          textHolds truth "?x >= 20") := by
  have hAccepted : ∀ b ∈ bearings, Kind.comparison.accepts b.fragment.toList = true := by
    simp only [bearings, List.forall_mem_cons]
    decide +kernel
  have hDirected : ∃ b ∈ bearings, (b.isLower || b.isUpper) = true :=
    ⟨⟨.int 300, ">", "?x > 300"⟩, List.mem_cons_self, rfl⟩
  obtain ⟨parts, text, tree, hParts, hText, -, hNested, -, hParse, hValue⟩ :=
    (merged_meaning bearings hAccepted hDirected).1 pairsInRange_bearings
  obtain rfl := Except.ok.inj (hParts.symm.trans mergedParts_bearings)
  refine ⟨hAccepted, pairsInRange_bearings, text, tree, hText, hNested 0, hParse, fun truth => ?_⟩
  rw [hValue truth]
  simp [MergedPart.holds]

/-- The fragments of bounds that are far apart are comparisons and point in their directions, yet
there is no expression that could mean their disjunction. -/
theorem far_bounds_meaningless :
    (∀ b ∈ farBounds, Kind.comparison.accepts b.fragment.toList = true) ∧
      (∃ b ∈ farBounds, (b.isLower || b.isUpper) = true) ∧
      ∀ text, mergedExpression farBounds ≠ .ok (some text) := by
  refine ⟨?_, ⟨_, List.mem_cons_self, rfl⟩, fun text hText => ?_⟩
  · simp only [farBounds, List.forall_mem_cons]
    decide +kernel
  · rw [mergedExpression_farBounds] at hText
    cases hText

end SparqlSelect
