import SparqlSelect.Proofs.Query.Prologue
import SparqlSelect.Proofs.Query.Tree

/-!
# Indentation

The depth at which something is written is seen in its indentation alone. Every line has a level,
that is, how far inside it stands, and at whatever depth all is written, a line is behind as many
indents as the depth and its level make together. So what is written further inside is the same
lines with the further indents in front. Whether something can be written at all does not depend on
the depth.

* `Levelled` — lines that have levels, at depths above the outermost one too.
* `treeInduction_levelled` — the lines of groups, elements and branches, by induction on the tree.
* `lines_deeper` — what is written further inside.
-/

namespace SparqlSelect

/-- A line with so many indents in front. -/
def behindIndents (k : Nat) (line : String) : String := String.join (List.replicate k "  ") ++ line

/-- `k` steps of indentation are `2 * k` blanks. -/
theorem toList_join_indents (k : Nat) :
    (String.join (List.replicate k "  ")).toList = List.replicate (2 * k) ' ' := by
  induction k with
  | zero => rfl
  | succ k ih =>
    rw [List.replicate_succ, String.join_cons, String.toList_append, ih, Nat.mul_succ, Nat.add_comm,
      List.replicate_add]
    rfl

/-- From the outermost depth on, each depth brings one indent. -/
theorem indented_add (d k : Nat) (line : String) :
    indented (d + k) line = behindIndents k (indented d line) := by
  have hDepth : 2 * ((d : Int) + k).toNat = 2 * k + 2 * d := by omega
  rw [← String.toList_inj, behindIndents, String.toList_append, toList_join_indents,
    toList_indented, toList_indented, hDepth, List.replicate_add, List.append_assoc]
  rfl

-- ---------------------------------------------------------------------------
-- Lines with levels
-- ---------------------------------------------------------------------------

/-- Some lines are the same at every depth but for their indentation: each has a level, which is
added to the depth. -/
def Levelled (lines : Int → List String) : Prop :=
  ∃ levels : List (Nat × String), ∀ depth, lines depth =
    levels.map fun (level, text) => indented (depth + level) text

section

variable {lines lines' : Int → List String}

theorem levelled_nil : Levelled fun _ => [] := ⟨[], fun _ => rfl⟩

/-- A single line moves with its depth. -/
theorem levelled_line (text : String) : Levelled fun depth => [indented depth text] :=
  ⟨[(0, text)], fun depth => by simp⟩

theorem Levelled.append (h : Levelled lines) (h' : Levelled lines') :
    Levelled fun depth => lines depth ++ lines' depth := by
  obtain ⟨levels, h⟩ := h
  obtain ⟨levels', h'⟩ := h'
  exact ⟨levels ++ levels', fun depth => by simp only [h, h', List.map_append]⟩

/-- What stands one level inside. -/
theorem Levelled.inside (h : Levelled lines) : Levelled fun depth => lines (depth + 1) := by
  obtain ⟨levels, h⟩ := h
  refine ⟨levels.map fun (level, text) => (level + 1, text), fun depth => ?_⟩
  simp only [h, List.map_map]
  refine List.map_congr_left fun (level, text) _ => ?_
  have hDepth : depth + 1 + level = depth + (level + 1 : Nat) := by omega
  rw [hDepth]
  rfl

/-- Lines written one piece after another move together when each piece does. -/
theorem Levelled.flatMap {α : Type} {write : Int → α → List String} {xs : List α}
    (h : ∀ x ∈ xs, Levelled fun depth => write depth x) :
    Levelled fun depth => xs.flatMap (write depth) := by
  induction xs with
  | nil => exact levelled_nil
  | cons x rest ih =>
    obtain ⟨hFirst, hRest⟩ := List.forall_mem_cons.mp h
    exact hFirst.append (ih hRest)

/-- Lines in braces, with a keyword before the first one. -/
theorem Levelled.block (h : Levelled lines) (keyword : String) : Levelled fun depth =>
    indented depth (keyword ++ "\x7b") :: lines (depth + 1) ++ [indented depth "\x7d"] :=
  ((levelled_line _).append h.inside).append (levelled_line _)

/-- Further inside, all lines have the further indents in front. -/
theorem Levelled.deeper (h : Levelled lines) (d k : Nat) :
    lines (d + k) = (lines d).map (behindIndents k) := by
  obtain ⟨levels, h⟩ := h
  rw [h, h, List.map_map]
  refine List.map_congr_left fun (level, text) _ => ?_
  have hDepth : (d : Int) + k + level = (d + level : Nat) + k := by omega
  calc indented (d + k + level) text
      = indented ((d + level : Nat) + k) text := by rw [hDepth]
    _ = behindIndents k (indented ((d + level : Nat)) text) := indented_add _ _ _
    _ = behindIndents k (indented (d + level) text) := by rw [Int.natCast_add]

end

-- ---------------------------------------------------------------------------
-- Trees
-- ---------------------------------------------------------------------------

/-- A union moves with its depth when its branches do. -/
theorem Branch.levelled_union {branches : List Branch}
    (h : ∀ b ∈ branches, Levelled fun depth => b.lines depth) :
    Levelled fun depth => Branch.unionLines depth branches := by
  cases branches with
  | nil => exact levelled_nil
  | cons b rest =>
    obtain ⟨hb, hRest⟩ := List.forall_mem_cons.mp h
    simp only [Branch.unionLines, Branch.furtherLines_eq]
    exact hb.append (Levelled.flatMap fun b hb => (levelled_line "UNION").append (hRest b hb))

/-- The lines of a query have levels if those of its pattern do. -/
theorem SelectQuery.levelled {q : SelectQuery} (h : Levelled fun depth => q.body.bodyLines depth) :
    Levelled fun depth => q.lines depth := by
  obtain ⟨prefixes, projection, body, modifiers, distinct⟩ := q
  have hModifiers : Levelled fun depth =>
      (Modifier.sorted modifiers).map fun m => indented depth m.text := by
    simp only [List.map_eq_flatMap]
    exact Levelled.flatMap fun m _ => levelled_line m.text
  have hWhere := h.block "WHERE "
  exact ((levelled_line (selectLine projection distinct)).append hWhere).append hModifiers

/-- Everything in a tree is written in lines with levels. -/
theorem treeInduction_levelled : TreeInduction (fun g => Levelled fun depth => g.bodyLines depth)
    (fun e => Levelled fun depth => e.lines depth)
    (fun b => Levelled fun depth => b.lines depth) := by
  constructor
  case members =>
    intro origin elements ih
    simp only [Group.bodyLines, Element.linesOfAll_eq]
    exact Levelled.flatMap ih
  case triple => exact fun t => levelled_line t.text
  case filter => exact fun e => levelled_line ("FILTER(" ++ e ++ ")")
  case bind => exact fun b => levelled_line b.text
  case optional => exact fun g ih => ih.block "OPTIONAL "
  case union => exact fun branches ih => Branch.levelled_union ih
  case nested => exact fun b ih => ih
  case group => exact fun g ih => ih.block ""
  case select => exact fun q ih => (SelectQuery.levelled ih).block ""

/-- **Indentation.** At a depth that is `k` further inside, an element, a group with or without its
braces, a branch and a query are written in the same lines, each with `k` indents in front. -/
theorem lines_deeper (d k : Nat) :
    (∀ e : Element, e.lines (d + k) = (e.lines d).map (behindIndents k)) ∧
    (∀ g : Group, g.bodyLines (d + k) = (g.bodyLines d).map (behindIndents k) ∧
      g.lines (d + k) = (g.lines d).map (behindIndents k)) ∧
    (∀ b : Branch, b.lines (d + k) = (b.lines d).map (behindIndents k)) ∧
    ∀ q : SelectQuery, q.lines (d + k) = (q.lines d).map (behindIndents k) := by
  have hTree := treeInduction_levelled
  refine ⟨fun e => (hTree.onElement e).deeper d k, fun g => ⟨(hTree.onGroup g).deeper d k, ?_⟩,
    fun b => (hTree.onBranch b).deeper d k, fun q => ?_⟩
  · exact (hTree.onBranch (.group g)).deeper d k
  · exact (SelectQuery.levelled (hTree.onGroup q.body)).deeper d k

end SparqlSelect
