import SparqlSelect.Proofs.Compile.Drafts
import SparqlSelect.Proofs.Query.Lines
import SparqlSelect.Proofs.Query.Normal
import SparqlSelect.Proofs.Query.Subqueries

/-!
# Lines tell the pattern

Two patterns that are written as the same lines are the same, but for what is not written. The first
line of an element tells what it is, and so do the lines that go on behind it: what is inside braces
ends where a brace stands that starts no element, branches go on where a line is `UNION`, and the
modifiers of a query end at the next brace. So every part of a pattern is told together with the
place where its lines end, whatever follows.

* `Element.IsPlain` — what is asked of both patterns.
* `Element.exists_lines_eq_cons` — the first line of an element.
* `Group.IsTold`, `Element.IsTold`, `Branch.IsTold` — a part and its end are told from the lines;
  `linesOfAll_inj`, `furtherLines_inj` and `SelectQuery.lines_inj` pass this on to lists and
  queries.
* `Group.bodyLines_eq_iff` — the same lines and the same normal form are one thing.
-/

namespace SparqlSelect

-- ---------------------------------------------------------------------------
-- Plain patterns
-- ---------------------------------------------------------------------------

/-- An element with fragments that fit, whose own queries select and are modified by variables. -/
def Element.IsPlain (e : Element) : Prop := e.Fits ∧ e.QueriesAre SelectQuery.IsPlain

/-- A branch with plain elements that is no query, or a plain one. -/
def Branch.IsPlain (b : Branch) : Prop :=
  b.Everywhere Element.IsPlain ∧ b.QueryIs SelectQuery.IsPlain

section

variable {e e' : Element} {b b' : Branch} {depth : Int} {rest rest' : List String}

theorem Branch.isPlain_group {g : Group} :
    (Branch.group g).IsPlain ↔ g.Everywhere Element.IsPlain := by
  simp [IsPlain]

/-- A sub-query is plain when its body is, everywhere, and its own clauses are. -/
theorem Branch.isPlain_select {q : SelectQuery} :
    (Branch.select q).IsPlain ↔ q.body.Everywhere Element.IsPlain ∧ q.IsPlain := by
  simp [IsPlain]

theorem Element.everywhere_isPlain_union {branches : List Branch} :
    (Element.union branches).Everywhere Element.IsPlain ↔ ∀ b ∈ branches, b.IsPlain := by
  simp only [everywhere_union, IsPlain, Fits, queriesAre_union, true_and, Branch.IsPlain]
  constructor
  · exact fun h b hb => ⟨h.2 b hb, h.1 b hb⟩
  · exact fun h => ⟨fun b hb => (h b hb).2, fun b hb => (h b hb).1⟩

theorem Element.everywhere_isPlain_nested :
    (Element.nested b).Everywhere Element.IsPlain ↔ b.IsPlain := by
  simp [IsPlain, Fits, Branch.IsPlain, and_comm]

-- ---------------------------------------------------------------------------
-- First lines
-- ---------------------------------------------------------------------------

/-- What the first line of an element is. -/
def Element.headKind : Element → LineKind
  | .triple _ => .other
  | .filter _ => .filter
  | .bind _ => .bind
  | .optional _ => .optional
  | .union _ | .nested _ => .opening

/-- Whether an element is not written at all. -/
def Element.isVoid : Element → Bool
  | .union [] => true
  | _ => false

/-- A branch starts with an opening brace. -/
theorem Branch.exists_lines_eq_cons (b : Branch) (depth : Int) :
    ∃ more, b.lines depth = indented depth "\x7b" :: more := by
  cases b with
  | group _ => exact ⟨_, rfl⟩
  | select _ => exact ⟨_, rfl⟩

/-- An element that is written starts with a line that tells what it is. -/
theorem Element.exists_lines_eq_cons (h : e.Fits) (hWritten : e.isVoid = false) (depth : Int) :
    ∃ line more, e.lines depth = line :: more ∧ LineKind.of line = e.headKind := by
  cases e with
  | triple t => exact ⟨_, [], rfl, by rw [LineKind.of_indented]; exact LineKind.of_triple h.subject⟩
  | filter e => exact ⟨_, [], rfl, by rw [LineKind.of_indented]; exact LineKind.of_filter e⟩
  | bind b => exact ⟨_, [], rfl, by rw [LineKind.of_indented]; exact LineKind.of_bind b⟩
  | optional body => exact ⟨_, _, rfl, by rw [LineKind.of_indented]; rfl⟩
  -- a union without branches has no lines, and is void
  | union branches =>
    cases branches with
    | nil => cases hWritten
    | cons b rest =>
      obtain ⟨more, hMore⟩ := b.exists_lines_eq_cons depth
      refine ⟨indented depth "\x7b", more ++ Branch.furtherLines depth rest, ?_, ?_⟩
      · rw [lines, Branch.unionLines, hMore, List.cons_append]
      · rw [LineKind.of_indented]
        rfl
  | nested b =>
    obtain ⟨more, hMore⟩ := b.exists_lines_eq_cons depth
    exact ⟨_, more, hMore, by rw [LineKind.of_indented]; rfl⟩

/-- No lines, or lines that go on with a closing brace. -/
def Closes (lines : List String) : Prop := ∀ line ∈ lines.head?, LineKind.of line = .closing

/-- No lines, or lines that do not go on with a branch or with a selection. -/
def Settled (lines : List String) : Prop :=
  ∀ line ∈ lines.head?, LineKind.of line ≠ .union ∧ LineKind.of line ≠ .select

theorem Closes.settled {lines : List String} (h : Closes lines) : Settled lines := by
  intro line hLine
  rw [h line hLine]
  exact ⟨by decide, by decide⟩

/-- Lines that start with a closing brace go on with one. -/
theorem closes_brace (depth : Int) (lines : List String) :
    Closes (indented depth "\x7d" :: lines) := by
  rintro line hLine
  obtain rfl := Option.some.inj hLine
  rw [LineKind.of_indented]
  rfl

/-- No element starts with a line that closes, joins or selects, so the first line tells the
element's kind. -/
theorem Element.headKind_ne (e : Element) :
    e.headKind ≠ .closing ∧ e.headKind ≠ .union ∧ e.headKind ≠ .select := by
  cases e <;> simp [headKind]

/-- An element that is not written comes to nothing. -/
theorem Element.eq_of_isVoid (h : e.isVoid = true) : e = .union [] := by
  cases e with
  | union branches =>
    cases branches with
    | nil => rfl
    | cons _ _ => cases h
  | _ => cases h

/-- An element does not start as what closes a group. -/
theorem Element.not_closes (h : e.Fits) (hWritten : e.isVoid = false) (rest : List String) :
    ¬ Closes (e.lines depth ++ rest) := by
  obtain ⟨line, more, hLines, hKind⟩ := exists_lines_eq_cons h hWritten depth
  intro hCloses
  rw [hLines] at hCloses
  exact e.headKind_ne.1 (hKind ▸ hCloses line rfl)

/-- Elements do not start with a further branch or with a selection, and neither does what closes
their group. -/
theorem Element.settled_linesOfAll {elements : List Element} (h : ∀ e ∈ elements, e.Fits)
    (hRest : Closes rest) : Settled (Element.linesOfAll depth elements ++ rest) := by
  induction elements with
  | nil => exact hRest.settled
  | cons e others ih =>
    obtain ⟨he, hOthers⟩ := List.forall_mem_cons.mp h
    -- a void element has no lines, any other one a first line that cannot go on a union
    cases hVoid : e.isVoid with
    | true =>
      rw [eq_of_isVoid hVoid]
      exact ih hOthers
    | false =>
      obtain ⟨line, more, hLines, hKind⟩ := exists_lines_eq_cons he hVoid depth
      rw [linesOfAll, hLines]
      rintro _ hLine
      obtain rfl := Option.some.inj hLine
      rw [hKind]
      exact e.headKind_ne.2

/-- Elements that are written alike are of one kind. -/
theorem Element.headKind_eq (h : e.Fits) (h' : e'.Fits) (hWritten : e.isVoid = false)
    (hWritten' : e'.isVoid = false) (hLines : e.lines depth ++ rest = e'.lines depth ++ rest') :
    e.headKind = e'.headKind := by
  obtain ⟨line, more, hFirst, hKind⟩ := exists_lines_eq_cons h hWritten depth
  obtain ⟨line', more', hFirst', hKind'⟩ := exists_lines_eq_cons h' hWritten' depth
  rw [hFirst, hFirst', List.cons_append, List.cons_append] at hLines
  rw [← hKind, ← hKind', (List.cons.inj hLines).1]

/-- Lines written at one depth are equal only when their texts are. -/
theorem indented_inj {line line' : String} (h : indented depth line = indented depth line') :
    line = line' := by
  have hText := congrArg String.toList h
  rw [toList_indented, toList_indented] at hText
  exact String.toList_inj.mp (List.append_cancel_left hText)

-- ---------------------------------------------------------------------------
-- Parts that are told from their lines
-- ---------------------------------------------------------------------------

/-- The lines of a group tell its normal form and where it ends, if they are not followed by more
elements. -/
def Group.IsTold (g : Group) : Prop :=
  ∀ (g' : Group) (depth : Int) (rest rest' : List String), g'.Everywhere Element.IsPlain →
    Closes rest → Closes rest' → g.bodyLines depth ++ rest = g'.bodyLines depth ++ rest' →
    g.normal = g'.normal ∧ rest = rest'

/-- The lines of an element tell its normal form and where it ends, if it is written and not
followed by more branches. -/
def Element.IsTold (e : Element) : Prop :=
  ∀ (e' : Element) (depth : Int) (rest rest' : List String), e'.Everywhere Element.IsPlain →
    e.isVoid = false → e'.isVoid = false → Settled rest → Settled rest' →
    e.lines depth ++ rest = e'.lines depth ++ rest' → e.normal = e'.normal ∧ rest = rest'

/-- The lines of a branch tell its normal form and where it ends. -/
def Branch.IsTold (b : Branch) : Prop :=
  ∀ (b' : Branch) (depth : Int) (rest rest' : List String), b'.IsPlain →
    b.lines depth ++ rest = b'.lines depth ++ rest' → b.normal = b'.normal ∧ rest = rest'

/-- The elements that are written. -/
def Element.written (elements : List Element) : List Element := elements.filter fun e => !e.isVoid

/-- Elements that are not written change neither the lines nor the normal form. -/
theorem Element.written_eq (elements : List Element) (depth : Int) :
    Element.linesOfAll depth (Element.written elements) = Element.linesOfAll depth elements ∧
      Element.normalAll (Element.written elements) = Element.normalAll elements := by
  induction elements with
  | nil => exact ⟨rfl, rfl⟩
  | cons e others ih =>
    cases hVoid : e.isVoid with
    | true =>
      rw [written, List.filter_cons_of_neg (by simp [hVoid]), eq_of_isVoid hVoid]
      exact ih
    | false =>
      rw [written, List.filter_cons_of_pos (by simp [hVoid]), linesOfAll, linesOfAll, normalAll,
        normalAll, ← ih.1, ← ih.2]
      exact ⟨rfl, rfl⟩

/-- Elements that are written are told one by one. -/
theorem Element.linesOfAll_inj_of_written {elements elements' : List Element}
    (hWritten : ∀ e ∈ elements, e.isVoid = false) (hWritten' : ∀ e ∈ elements', e.isVoid = false)
    (hTold : ∀ e ∈ elements, e.IsTold) (h : ∀ e ∈ elements, e.Everywhere Element.IsPlain)
    (h' : ∀ e ∈ elements', e.Everywhere Element.IsPlain) (hRest : Closes rest)
    (hRest' : Closes rest') (hLines : Element.linesOfAll depth elements ++ rest =
      Element.linesOfAll depth elements' ++ rest') :
    Element.normalAll elements = Element.normalAll elements' ∧ rest = rest' := by
  induction elements generalizing elements' with
  | nil =>
    -- lines that are left could only be those of what follows, which goes on with a brace
    cases elements' with
    | nil => exact ⟨rfl, hLines⟩
    | cons e' others' =>
      rw [linesOfAll, linesOfAll, List.nil_append, List.append_assoc] at hLines
      exact absurd (hLines ▸ hRest)
        (not_closes (h' e' List.mem_cons_self).1.1 (hWritten' e' List.mem_cons_self) _)
  | cons e others ih =>
    -- likewise with the two lists exchanged
    cases elements' with
    | nil =>
      rw [linesOfAll, linesOfAll, List.nil_append, List.append_assoc] at hLines
      exact absurd (hLines ▸ hRest')
        (not_closes (h e List.mem_cons_self).1.1 (hWritten e List.mem_cons_self) _)
    | cons e' others' =>
      obtain ⟨hFirst, hOthers⟩ := List.forall_mem_cons.mp h
      obtain ⟨hFirst', hOthers'⟩ := List.forall_mem_cons.mp h'
      have hSettled {elements : List Element} {rest : List String}
          (h : ∀ e ∈ elements, e.Everywhere Element.IsPlain) (hRest : Closes rest) :
          Settled (Element.linesOfAll depth elements ++ rest) :=
        settled_linesOfAll (fun e he => (h e he).1.1) hRest
      rw [linesOfAll, linesOfAll, List.append_assoc, List.append_assoc] at hLines
      obtain ⟨hNormal, hTail⟩ := hTold e List.mem_cons_self e' depth _ _ hFirst'
        (hWritten e List.mem_cons_self) (hWritten' e' List.mem_cons_self)
        (hSettled hOthers hRest) (hSettled hOthers' hRest') hLines
      obtain ⟨hAll, hEnd⟩ := ih (fun e he => hWritten e (List.mem_cons_of_mem _ he))
        (fun e he => hWritten' e (List.mem_cons_of_mem _ he))
        (fun e he => hTold e (List.mem_cons_of_mem _ he)) hOthers hOthers' hTail
      exact ⟨by rw [normalAll, normalAll, hNormal, hAll], hEnd⟩

/-- Elements are told if each of them is. -/
theorem Element.linesOfAll_inj {elements elements' : List Element}
    (hTold : ∀ e ∈ elements, e.IsTold) (h : ∀ e ∈ elements, e.Everywhere Element.IsPlain)
    (h' : ∀ e ∈ elements', e.Everywhere Element.IsPlain) (hRest : Closes rest)
    (hRest' : Closes rest') (hLines : Element.linesOfAll depth elements ++ rest =
      Element.linesOfAll depth elements' ++ rest') :
    Element.normalAll elements = Element.normalAll elements' ∧ rest = rest' := by
  -- those that are not written stand anywhere and leave no trace
  rw [← (written_eq elements depth).1, ← (written_eq elements' depth).1] at hLines
  rw [← (written_eq elements depth).2, ← (written_eq elements' depth).2]
  have hNone (elements : List Element) : ∀ e ∈ written elements, e.isVoid = false :=
    fun e he => by simpa using (List.mem_filter.mp he).2
  exact linesOfAll_inj_of_written (hNone _) (hNone _)
    (fun e he => hTold e (List.mem_of_mem_filter he))
    (fun e he => h e (List.mem_of_mem_filter he)) (fun e he => h' e (List.mem_of_mem_filter he))
    hRest hRest' hLines

/-- Branches behind the first one are told if each of them is. -/
theorem Branch.furtherLines_inj {branches branches' : List Branch}
    (hTold : ∀ b ∈ branches, b.IsTold) (h' : ∀ b ∈ branches', b.IsPlain) (hRest : Settled rest)
    (hRest' : Settled rest') (hLines : Branch.furtherLines depth branches ++ rest =
      Branch.furtherLines depth branches' ++ rest') :
    Branch.normalAll branches = Branch.normalAll branches' ∧ rest = rest' := by
  -- what is settled does not go on with another branch
  have hUnion (lines : List String) : ¬ Settled (indented depth "UNION" :: lines) := by
    intro hSettled
    exact (hSettled _ rfl).1 (by rw [LineKind.of_indented]; rfl)
  induction branches generalizing branches' with
  | nil =>
    cases branches' with
    | nil => exact ⟨rfl, hLines⟩
    | cons b' others' =>
      rw [furtherLines, List.nil_append] at hLines
      exact absurd (hLines ▸ hRest) (hUnion _)
  | cons b others ih =>
    cases branches' with
    | nil =>
      exact absurd (show Settled (furtherLines depth (b :: others) ++ rest) from hLines ▸ hRest')
        (hUnion _)
    | cons b' others' =>
      obtain ⟨hb, hOthers⟩ := List.forall_mem_cons.mp hTold
      obtain ⟨hb', hOthers'⟩ := List.forall_mem_cons.mp h'
      simp only [furtherLines, List.cons_append, List.append_assoc, List.cons.injEq,
        true_and] at hLines
      obtain ⟨hNormal, hTail⟩ := hb b' depth _ _ hb' hLines
      obtain ⟨hAll, hEnd⟩ := ih hOthers hOthers' hTail
      exact ⟨by rw [normalAll, normalAll, hNormal, hAll], hEnd⟩

/-- The branches that an element is written with. -/
def Element.branches : Element → List Branch
  | .union branches => branches
  | .nested branch => [branch]
  | .triple _ | .filter _ | .bind _ | .optional _ => []

/-- What an element with branches is written as and comes to. -/
theorem Element.exists_branches (h : e.headKind = .opening) (hWritten : e.isVoid = false) :
    ∃ b others, e.branches = b :: others ∧ e.normal = joining (Branch.normalAll e.branches) ∧
      ∀ depth, indented depth "UNION" :: e.lines depth = Branch.furtherLines depth e.branches := by
  cases e with
  | union branches =>
    cases branches with
    | nil => cases hWritten
    | cons b others => exact ⟨b, others, rfl, rfl, fun _ => rfl⟩
  | nested b =>
    refine ⟨b, [], rfl, rfl, fun depth => ?_⟩
    simp [lines, branches, Branch.furtherLines]
  | _ => cases h

/-- The branches of a plain element are plain. -/
theorem Element.isPlain_branches (h : e.Everywhere Element.IsPlain) :
    ∀ b ∈ e.branches, b.IsPlain := by
  cases e with
  | union branches => exact everywhere_isPlain_union.mp h
  | nested b => exact List.forall_mem_singleton.mpr (everywhere_isPlain_nested.mp h)
  | _ => simp [branches]

/-- An element with branches is told if they are. -/
theorem Element.isTold_of_branches (h : e.Fits) (hHead : e.headKind = .opening)
    (hTold : ∀ b ∈ e.branches, b.IsTold) : e.IsTold := by
  intro e' depth rest rest' h' hWritten hWritten' hRest hRest' hLines
  have hHead' := headKind_eq h h'.1.1 hWritten hWritten' hLines
  obtain ⟨b, others, -, hNormal, hJoined⟩ := exists_branches hHead hWritten
  obtain ⟨b', others', -, hNormal', hJoined'⟩ := exists_branches (hHead' ▸ hHead) hWritten'
  have hFurther : Branch.furtherLines depth e.branches ++ rest =
      Branch.furtherLines depth e'.branches ++ rest' := by
    rw [← hJoined, ← hJoined', List.cons_append, List.cons_append, hLines]
  obtain ⟨hAll, hEnd⟩ :=
    Branch.furtherLines_inj hTold (isPlain_branches h') hRest hRest' hFurther
  exact ⟨by rw [hNormal, hNormal', hAll], hEnd⟩

-- ---------------------------------------------------------------------------
-- Queries
-- ---------------------------------------------------------------------------

/-- Modifiers are told from their lines. -/
theorem modifierLines_inj {modifiers modifiers' : List Modifier}
    (h : ∀ m ∈ modifiers, m.IsPlain) (h' : ∀ m ∈ modifiers', m.IsPlain)
    (hLines : (modifiers.map fun m => indented depth m.text) =
      modifiers'.map fun m => indented depth m.text) : modifiers = modifiers' := by
  induction modifiers generalizing modifiers' with
  | nil => exact (List.map_eq_nil_iff.mp hLines.symm).symm
  | cons m others ih =>
    cases modifiers' with
    | nil => cases hLines
    | cons m' others' =>
      obtain ⟨hm, hOthers⟩ := List.forall_mem_cons.mp h
      obtain ⟨hm', hOthers'⟩ := List.forall_mem_cons.mp h'
      obtain ⟨hFirst, hTail⟩ := List.cons.inj hLines
      rw [Modifier.text_inj hm hm' (indented_inj hFirst), ih hOthers hOthers' hTail]

/-- The lines of a query tell its normal form and where it ends, if a closing brace follows. -/
theorem SelectQuery.lines_inj {q q' : SelectQuery} (hTold : q.body.IsTold) (h : q.IsPlain)
    (h' : q'.IsPlain) (hBody : q'.body.Everywhere Element.IsPlain)
    (hLines : q.lines (depth + 1) ++ indented depth "\x7d" :: rest =
      q'.lines (depth + 1) ++ indented depth "\x7d" :: rest') :
    q.normal = q'.normal ∧ rest = rest' := by
  obtain ⟨prefixes, projection, body, modifiers, distinct⟩ := q
  obtain ⟨prefixes', projection', body', modifiers', distinct'⟩ := q'
  simp only [lines, List.cons_append, List.append_assoc, List.nil_append, List.cons.injEq,
    true_and] at hLines
  obtain ⟨hSelect, hRest⟩ := hLines
  obtain ⟨rfl, rfl⟩ := selectLine_inj h.projection h'.projection (indented_inj hSelect)
  obtain ⟨hNormal, hTail⟩ := hTold body' _ _ _ hBody (closes_brace _ _) (closes_brace _ _) hRest
  -- no modifier is written as the closing brace, so the modifiers end where it stands
  have hApart (modifiers : List Modifier) : indented depth "\x7d" ∉
      (Modifier.sorted modifiers).map fun m => indented (depth + 1) m.text := by
    intro hMem
    obtain ⟨m, -, hSame⟩ := List.mem_map.mp hMem
    have hKind := congrArg LineKind.of hSame
    rw [LineKind.of_indented, LineKind.of_indented, LineKind.of_modifier] at hKind
    exact absurd hKind (by decide)
  obtain ⟨hModifiers, hEnd⟩ :=
    Pattern.append_cons_inj (hApart modifiers) (hApart modifiers') (List.cons.inj hTail).2
  have hSorted := modifierLines_inj
    (fun m hm => h.modifiers m (Modifier.mem_of_mem_sorted hm))
    (fun m hm => h'.modifiers m (Modifier.mem_of_mem_sorted hm)) hModifiers
  refine ⟨?_, hEnd⟩
  change SelectQuery.mk _ _ body.normal _ _ = SelectQuery.mk _ _ body'.normal _ _
  rw [show body.normal = body'.normal from hNormal, hSorted]

/-- A group in braces is not written as a query in braces. -/
theorem ne_of_group_select {g : Group} {q : SelectQuery} (h : g.Everywhere Element.IsPlain) :
    (Branch.group g).lines depth ++ rest ≠ (Branch.select q).lines depth ++ rest' := by
  obtain ⟨prefixes, projection, body, modifiers, distinct⟩ := q
  obtain ⟨origin, elements⟩ := g
  intro hLines
  simp only [Branch.lines, Group.bodyLines, SelectQuery.lines, List.cons_append,
    List.append_assoc, List.nil_append, List.cons.injEq, true_and] at hLines
  have hSettled : Settled (Element.linesOfAll (depth + 1) elements ++
      indented depth "\x7d" :: rest) :=
    Element.settled_linesOfAll (fun e he => (Group.everywhere_mk.mp h e he).1.1)
      (closes_brace depth rest)
  rw [hLines] at hSettled
  exact (hSettled _ rfl).2 (by rw [LineKind.of_indented, LineKind.of_selectLine])

-- ---------------------------------------------------------------------------
-- Patterns
-- ---------------------------------------------------------------------------

/-- A triple is told from its line. -/
theorem Element.isTold_triple {t : Triple} (h : (Element.triple t).Fits) :
    (Element.triple t).IsTold := by
  intro e' depth rest rest' h' hWritten hWritten' _ _ hLines
  have hKind := headKind_eq h h'.1.1 hWritten hWritten' hLines
  cases e' with
  | triple t' =>
    obtain ⟨hLine, hEnd⟩ := List.cons.inj hLines
    have hFits : t.Fits := h
    have hFits' : t'.Fits := h'.1.1
    obtain rfl := Triple.text_inj hFits.subject hFits'.subject hFits.predicate hFits'.predicate
      hFits.object hFits'.object (indented_inj hLine)
    exact ⟨rfl, hEnd⟩
  | _ => cases hKind

/-- A filter is told from its line. -/
theorem Element.isTold_filter {condition : String} (h : (Element.filter condition).Fits) :
    (Element.filter condition).IsTold := by
  intro e' depth rest rest' h' hWritten hWritten' _ _ hLines
  have hKind := headKind_eq h h'.1.1 hWritten hWritten' hLines
  cases e' with
  | filter condition' =>
    obtain ⟨hLine, hEnd⟩ := List.cons.inj hLines
    obtain rfl := filter_inj (indented_inj hLine)
    exact ⟨rfl, hEnd⟩
  | _ => cases hKind

/-- A binding is told from its line. -/
theorem Element.isTold_bind {b : Binding} (h : (Element.bind b).Fits) :
    (Element.bind b).IsTold := by
  intro e' depth rest rest' h' hWritten hWritten' _ _ hLines
  have hKind := headKind_eq h h'.1.1 hWritten hWritten' hLines
  cases e' with
  | bind b' =>
    obtain ⟨hLine, hEnd⟩ := List.cons.inj hLines
    have hFits : b.Fits := h
    have hFits' : b'.Fits := h'.1.1
    obtain rfl := Binding.text_inj hFits.var hFits'.var (indented_inj hLine)
    exact ⟨rfl, hEnd⟩
  | _ => cases hKind

/-- An optional group is told if the group is. -/
theorem Element.isTold_optional {g : Group} (h : (Element.optional g).Fits) (hTold : g.IsTold) :
    (Element.optional g).IsTold := by
  intro e' depth rest rest' h' hWritten hWritten' _ _ hLines
  have hKind := headKind_eq h h'.1.1 hWritten hWritten' hLines
  cases e' with
  | optional g' =>
    simp only [lines, List.cons_append, List.append_assoc, List.nil_append, List.cons.injEq,
      true_and] at hLines
    obtain ⟨hNormal, hTail⟩ := hTold g' _ _ _ h'.2 (closes_brace _ _) (closes_brace _ _) hLines
    exact ⟨by rw [normal, normal, hNormal], (List.cons.inj hTail).2⟩
  | _ => cases hKind

/-- A group is told if its elements are. -/
theorem Group.isTold_of_elements {origin : Option String} {elements : List Element}
    (h : ∀ e ∈ elements, e.Everywhere Element.IsPlain) (hTold : ∀ e ∈ elements, e.IsTold) :
    (⟨origin, elements⟩ : Group).IsTold := by
  rintro ⟨origin', elements'⟩ depth rest rest' h' hRest hRest' hLines
  obtain ⟨hAll, hEnd⟩ := Element.linesOfAll_inj hTold h (Group.everywhere_mk.mp h') hRest hRest'
    hLines
  exact ⟨by rw [normal, normal, hAll], hEnd⟩

/-- A group in braces is told if the group is. -/
theorem Branch.isTold_group {g : Group} (h : g.Everywhere Element.IsPlain) (hTold : g.IsTold) :
    (Branch.group g).IsTold := by
  intro b' depth rest rest' h' hLines
  cases b' with
  | group g' =>
    simp only [lines, List.cons_append, List.append_assoc, List.nil_append, List.cons.injEq,
      true_and] at hLines
    obtain ⟨hNormal, hTail⟩ := hTold g' _ _ _ (isPlain_group.mp h') (closes_brace _ _)
      (closes_brace _ _) hLines
    exact ⟨by rw [normal, normal, hNormal], (List.cons.inj hTail).2⟩
  | select q' => exact absurd hLines (ne_of_group_select h)

/-- A query in braces is told if its pattern is. -/
theorem Branch.isTold_select {q : SelectQuery} (h : q.IsPlain) (hTold : q.body.IsTold) :
    (Branch.select q).IsTold := by
  intro b' depth rest rest' h' hLines
  cases b' with
  | group g' => exact absurd hLines.symm (ne_of_group_select (isPlain_group.mp h'))
  | select q' =>
    obtain ⟨hBody', hq'⟩ := isPlain_select.mp h'
    simp only [lines, List.cons_append, List.append_assoc, List.nil_append, List.cons.injEq,
      true_and] at hLines
    obtain ⟨hNormal, hEnd⟩ := SelectQuery.lines_inj hTold h hq' hBody' hLines
    exact ⟨by rw [normal, normal, hNormal], hEnd⟩

/-- Every part of a plain pattern is told from its lines. -/
theorem treeInduction_isTold :
    TreeInduction (fun g => g.Everywhere Element.IsPlain → g.IsTold)
      (fun e => e.Everywhere Element.IsPlain → e.IsTold) (fun b => b.IsPlain → b.IsTold) where
  members origin elements ih h := by
    have hElements := Group.everywhere_mk.mp h
    exact Group.isTold_of_elements hElements fun e he => ih e he (hElements e he)
  triple t h := Element.isTold_triple h.1.1
  filter e h := Element.isTold_filter h.1.1
  bind b h := Element.isTold_bind h.1.1
  optional g ih h := Element.isTold_optional h.1.1 (ih h.2)
  union branches ih h := by
    have hBranches := Element.everywhere_isPlain_union.mp h
    exact Element.isTold_of_branches h.1.1 rfl fun b hb => ih b hb (hBranches b hb)
  -- a nested element is a union with a single branch
  nested b ih h := by
    have hBranch := Element.everywhere_isPlain_nested.mp h
    exact Element.isTold_of_branches h.1.1 rfl (List.forall_mem_singleton.mpr (ih hBranch))
  group g ih h := by
    have hPlain := Branch.isPlain_group.mp h
    exact Branch.isTold_group hPlain (ih hPlain)
  select q ih h := by
    obtain ⟨hBody, hPlain⟩ := Branch.isPlain_select.mp h
    exact Branch.isTold_select hPlain (ih hBody)

/-- The lines of every plain group tell its normal form. -/
theorem Group.isTold : ∀ g : Group, g.Everywhere Element.IsPlain → g.IsTold :=
  treeInduction_isTold.onGroup

end

/-- **Lines tell the pattern.** Take any two patterns whose fragments are of the kinds for their
places, and in which queries select and are modified by variables and integers only. They are
written as the same lines exactly if they have the same normal form: if they differ at most in
origins and prefixes, in unions without branches, in whether a single branch stands in a union, and
in the order in which modifiers of different kinds were set. -/
theorem Group.bodyLines_eq_iff {g g' : Group} (h : g.Everywhere Element.IsPlain)
    (h' : g'.Everywhere Element.IsPlain) (depth : Int) :
    g.bodyLines depth = g'.bodyLines depth ↔ g.normal = g'.normal := by
  constructor
  · intro hLines
    have hNone : Closes [] := fun _ hLine => by cases hLine
    exact (g.isTold h g' depth [] [] h' hNone hNone (by rw [hLines])).1
  · intro hNormal
    rw [← g.bodyLines_normal, hNormal, g'.bodyLines_normal]

/-- A path and a text that hold spaces. -/
def spacedTriple : Triple := ⟨"?s", "x:a / x:b", "'a (b'"⟩

/-- A pattern for an observable, with a filter. -/
def valuePattern (origin : Option String) : Group :=
  ⟨origin, [.triple spacedTriple, .filter "?v > 5", .optional ⟨origin, []⟩]⟩

/-- A modified query, alone in a union. -/
def wrappedPattern : Group :=
  ⟨some "x:v", [.union [], .triple spacedTriple, .union [.select
    ⟨[(.str "x", .str "http://example.org/")], ["?s", "?v"], valuePattern (some "x:v"),
      [.limit (.int 5), .orderBy [("?v", .descending), ("?s", .ascending)], .groupBy ["?s", "?v"]],
      true⟩]]⟩

/-- The same query in braces, without its prefixes, the modifiers in another order. -/
def barePattern : Group :=
  ⟨none, [.triple spacedTriple, .nested (.select ⟨[], ["?s", "?v"], valuePattern none,
    [.orderBy [("?v", .descending), ("?s", .ascending)], .groupBy ["?s", "?v"], .limit (.int 5)],
    true⟩)]⟩

/-- Both are written as the same lines. -/
theorem bodyLines_eq_iff_wrapped :
    wrappedPattern.Everywhere Element.IsPlain ∧ barePattern.Everywhere Element.IsPlain ∧
      wrappedPattern.bodyLines 0 = barePattern.bodyLines 0 ∧
      wrappedPattern.normal = barePattern.normal := by
  -- the parts that only evaluation can settle, before the patterns are taken apart
  have hTriple : spacedTriple.Fits := ⟨by decide +kernel, by decide +kernel, by decide +kernel⟩
  have hFilter : Kind.acceptsAny Kind.forFilter "?v > 5" = true := by decide +kernel
  have hValue (origin : Option String) : (valuePattern origin).Everywhere Element.IsPlain := by
    simp [valuePattern, Element.IsPlain, Element.Fits, hTriple, hFilter]
  have hVar : Kind.acceptsAny [.var] "?s" = true ∧ Kind.acceptsAny [.var] "?v" = true := by
    decide +kernel
  have hWrapped : wrappedPattern.Everywhere Element.IsPlain := by
    simp [-Prod.forall, wrappedPattern, Element.IsPlain, Element.Fits, hTriple, hValue,
      Modifier.IsPlain, SelectQuery.isPlain_iff, hVar]
  have hBare : barePattern.Everywhere Element.IsPlain := by
    simp [-Prod.forall, barePattern, Element.IsPlain, Element.Fits, hTriple, hValue,
      Modifier.IsPlain, SelectQuery.isPlain_iff, hVar]
  have hLines : wrappedPattern.bodyLines 0 = barePattern.bodyLines 0 := rfl
  exact ⟨hWrapped, hBare, hLines, (Group.bodyLines_eq_iff hWrapped hBare 0).mp hLines⟩

end SparqlSelect
