import SparqlSelect.Proofs.Pattern.Ends
import SparqlSelect.Proofs.Query.Tree
import SparqlSelect.Proofs.Traced.Success
import SparqlSelect.Query.Text

/-!
# Which prefixes a query declares

A prefix is declared if its name and a colon stand free somewhere in the text of the query: not
right after a character that could make them a part of something longer. Most names of a query stand
free. The one exception is a step of a path right after a slash, since the slash is such a
character, for the sake of IRIs.

* `SelectQuery.text_eq_ok` — the declared prefixes of a text.
* `Element.Leads.standsFree` — a name stands free in the text, unless it follows a slash.
-/

namespace SparqlSelect

-- ---------------------------------------------------------------------------
-- Words that stand free
-- ---------------------------------------------------------------------------

/-- A text does not end in a character that joins a name right after it. -/
def LeavesFree (u : List Char) : Prop := ∀ c ∈ u.getLast?, joinsName c = false

theorem leavesFree_nil : LeavesFree [] := fun _ hc => by cases hc

/-- A text that ends in a character no name has leaves what follows free. -/
theorem leavesFree_concat {u : List Char} {c : Char} (h : joinsName c = false) :
    LeavesFree (u ++ [c]) := by
  simpa [LeavesFree] using h

/-- Two texts that each leave what follows free do so together. -/
theorem LeavesFree.append {u v : List Char} (hu : LeavesFree u) (hv : LeavesFree v) :
    LeavesFree (u ++ v) := by
  intro c hc
  rw [List.getLast?_append, Option.mem_def, Option.or_eq_some_iff] at hc
  rcases hc with hc | ⟨-, hc⟩
  · exact hv c hc
  · exact hu c hc

/-- A word stands somewhere in a text, and not right after a character that joins it. -/
def StandsFree (word s : List Char) : Prop := ∃ u v, s = u ++ word ++ v ∧ LeavesFree u

theorem any_joinsName_iff {before : Option Char} :
    (!before.any joinsName) = true ↔ ∀ c ∈ before, joinsName c = false := by
  cases before <;> simp

/-- The character before what follows `c :: u` is the last of `u`, or `c` itself. -/
theorem or_getLast?_cons (c : Char) (u : List Char) (before : Option Char) :
    (c :: u).getLast?.or before = u.getLast?.or (some c) := by
  rw [List.getLast?_cons]
  cases u.getLast? <;> rfl

/-- The search finds the word exactly when the text splits around it with no name character before
it. -/
theorem standsIn_iff {word s : List Char} {before : Option Char} :
    standsIn word before s = true ↔
      ∃ u v, s = u ++ word ++ v ∧ ∀ c ∈ u.getLast?.or before, joinsName c = false := by
  -- induction on the text, with the character before it: the word starts here or later
  induction s generalizing before with
  | nil =>
    rw [standsIn, Bool.and_eq_true, any_joinsName_iff, List.isEmpty_iff]
    constructor
    · rintro ⟨rfl, hBefore⟩
      exact ⟨[], [], rfl, hBefore⟩
    · rintro ⟨u, v, hEmpty, hBefore⟩
      obtain ⟨rfl, rfl, rfl⟩ : u = [] ∧ word = [] ∧ v = [] := by simpa using hEmpty
      exact ⟨rfl, hBefore⟩
  | cons c rest ih =>
    rw [standsIn, Bool.or_eq_true, Bool.and_eq_true, any_joinsName_iff, List.isPrefixOf_iff_prefix,
      ih]
    constructor
    · rintro (⟨hBefore, v, hv⟩ | ⟨u, v, rfl, hBefore⟩)
      · exact ⟨[], v, hv.symm, hBefore⟩
      · exact ⟨c :: u, v, rfl, or_getLast?_cons c u before ▸ hBefore⟩
    · rintro ⟨u, v, hs, hBefore⟩
      cases u with
      | nil => exact .inl ⟨hBefore, v, hs.symm⟩
      | cons d u =>
        obtain ⟨rfl, rfl⟩ := List.cons.inj hs
        exact .inr ⟨u, v, by simp, or_getLast?_cons c u before ▸ hBefore⟩

/-- A prefix is used when its name and colon stand free somewhere in the body. -/
theorem usesPrefix_iff {body name : String} :
    usesPrefix body name = true ↔ StandsFree (name.toList ++ [':']) body.toList := by
  simp only [usesPrefix, standsIn_iff, StandsFree, LeavesFree, Option.or_none]

/-- The prefixes that a text uses are those whose names stand free in it. -/
theorem mem_usedPrefixes {body name : String} {iri : Json} {prefixes used : List (Json × Json)}
    (h : usedPrefixes body prefixes = .ok used) :
    (.str name, iri) ∈ used ↔
      (.str name, iri) ∈ prefixes ∧ StandsFree (name.toList ++ [':']) body.toList := by
  -- induction on the table: each prefix is decided on its own, and all names are texts
  induction prefixes generalizing used with
  | nil =>
    cases h
    simp
  | cons entry rest ih =>
    obtain ⟨first, value⟩ := entry
    cases first with
    | str n =>
      obtain ⟨others, hOthers, h⟩ := bind_eq_ok_iff.mp h
      cases h
      by_cases hUses : usesPrefix body n = true
      · rw [if_pos hUses, List.mem_cons, List.mem_cons, ih hOthers, or_and_right]
        refine or_congr_left (iff_self_and.mpr ?_)
        rintro hSame
        cases hSame
        exact usesPrefix_iff.mp hUses
      · rw [if_neg hUses, List.mem_cons, ih hOthers, or_and_right]
        refine (or_iff_right ?_).symm
        rintro ⟨hSame, hFree⟩
        cases hSame
        exact hUses (usesPrefix_iff.mpr hFree)
    | _ => cases h

/-- The prefixes that a text uses are found only if all names are texts. -/
theorem usedPrefixes_names {body : String} {prefixes used : List (Json × Json)}
    (h : usedPrefixes body prefixes = .ok used) :
    ∀ entry ∈ prefixes, ∃ name, entry.1 = .str name := by
  induction prefixes generalizing used with
  | nil => simp
  | cons entry rest ih =>
    obtain ⟨first, iri⟩ := entry
    cases first with
    | str name =>
      obtain ⟨others, hOthers, -⟩ := bind_eq_ok_iff.mp h
      exact List.forall_mem_cons.mpr ⟨⟨name, rfl⟩, ih hOthers⟩
    | _ => cases h

/-- The text of a query is its declarations, one on each line, and then everything else. -/
theorem SelectQuery.text_eq_ok {q : SelectQuery} {text : String} (h : q.text = .ok text) :
    ∃ used : List (Json × Json), text = "\n".intercalate
        (used.map (fun (name, iri) => declaration name iri) ++ [q.bodyText]) ∧
      ∀ name iri, (.str name, iri) ∈ used ↔ (.str name, iri) ∈ q.prefixes ∧
        StandsFree (name.toList ++ [':']) q.bodyText.toList := by
  unfold SelectQuery.text at h
  split at h
  · cases h
  · obtain ⟨used, hUsed, h⟩ := bind_eq_ok_iff.mp h
    cases h
    exact ⟨used, rfl, fun name iri => mem_usedPrefixes hUsed⟩

/-- A query that has a text has texts as the names of its prefixes. -/
theorem SelectQuery.text_names {q : SelectQuery} {text : String} (h : q.text = .ok text) :
    ∀ entry ∈ q.prefixes, ∃ name, entry.1 = .str name := by
  unfold SelectQuery.text at h
  split at h
  · cases h
  · obtain ⟨used, hUsed, -⟩ := bind_eq_ok_iff.mp h
    exact usedPrefixes_names hUsed

-- ---------------------------------------------------------------------------
-- Where names stand in fragments
-- ---------------------------------------------------------------------------

namespace Token

open Pattern CharClass

/-- What may stand in a path before one of its names. -/
def pathLead : Pattern :=
  optional (path ++ blanks ++ chars (anyOf '/' ['|'])) ++ blanks ++
    optional (chars (anyOf '^' ['!'])) ++ optional (char '(') ++ blanks

/-- What stands before the datatype of a text. -/
def datatypeLead : Pattern := text ++ blanks ++ word ['^', '^'] ++ blanks

end Token

/-- `e.Leads lead rest` — a name may start where `rest` does, in a fragment of `e` in which `lead`
stands before it: a name by itself, a step of a path, or the datatype of a text. -/
inductive Element.Leads : Element → List Char → List Char → Prop
  | subject (t : Triple) : Leads (.triple t) [] t.subject.toList
  | predicate {t : Triple} {lead rest : List Char} : t.predicate.toList = lead ++ rest →
    Token.pathLead.Matches lead → Leads (.triple t) lead rest
  | object (t : Triple) : Leads (.triple t) [] t.object.toList
  | datatype {t : Triple} {lead rest : List Char} : t.object.toList = lead ++ rest →
    Token.datatypeLead.Matches lead → Leads (.triple t) lead rest
  | filter {e : String} {before lead rest : List Char} : e.toList = before ++ lead ++ rest →
    Token.datatypeLead.Matches lead → Leads (.filter e) (before ++ lead) rest

/-- A blank never continues a name. -/
theorem joinsName_of_isBlank {c : Char} (h : isBlank c = true) : joinsName c = false := by
  have hNone : ['_', '/', '#', '.', '-'].any isBlank = false := by decide
  have hOthers : ∀ d ∈ ['_', '/', '#', '.', '-'], ¬ isBlank d = true := List.any_eq_false.mp hNone
  rw [joinsName, isWordPart, isAlphanumeric_of_isBlank h, Bool.or_false, Bool.or_eq_false_iff]
  constructor
  · refine beq_eq_false_iff_ne.mpr ?_
    rintro rfl
    exact hOthers '_' List.mem_cons_self h
  · rw [← Bool.not_eq_true, List.contains_iff_mem]
    exact fun hc => hOthers c (List.mem_cons_of_mem _ hc) h

/-- A character after which a name stands free, unless it is a slash. -/
def endsLead (c : Char) : Prop := c ≠ '/' → joinsName c = false

namespace Token

open Pattern CharClass

theorem endsLead_blanks : EndsIn endsLead blanks :=
  endsIn_blanks fun _ hc _ => joinsName_of_isBlank hc

/-- What may lead a path element ends in a character no name has. -/
theorem endsLead_pathLead : EndsIn endsLead pathLead := by
  have hJoint : EndsIn endsLead (chars (anyOf '/' ['|'])) := by
    refine endsIn_chars fun c hc hSlash => ?_
    rcases contains_anyOf_two hc with rfl | rfl
    · exact absurd rfl hSlash
    · decide
  have hMark : EndsIn endsLead (chars (anyOf '^' ['!'])) := by
    refine endsIn_chars fun c hc _ => ?_
    rcases contains_anyOf_two hc with rfl | rfl <;> decide
  have hBracket : EndsIn endsLead (char '(') := by
    refine endsIn_chars fun c hc _ => ?_
    obtain rfl : '(' = c := by simpa [CharClass.contains] using hc
    decide
  -- in the order in which the pattern has them; blanks stop no name either
  exact ((((EndsIn.afterAny hJoint rfl).optional.seq endsLead_blanks).seq hMark.optional).seq
    hBracket.optional).seq endsLead_blanks

/-- What leads a datatype ends in a character no name has. -/
theorem endsLead_datatypeLead : EndsIn endsLead datatypeLead := by
  have hMark : EndsIn endsLead (word ['^', '^']) := by
    refine EndsIn.afterAny (endsIn_chars fun c hc _ => ?_) rfl
    obtain rfl : '^' = c := by simpa [CharClass.contains] using hc
    decide
  exact (EndsIn.afterAny hMark rfl).seq endsLead_blanks

end Token

/-- What stands before a name ends in a slash or in nothing that joins the name. -/
theorem Element.Leads.ends {e : Element} {lead rest : List Char} (h : e.Leads lead rest) :
    ∀ c ∈ lead.getLast?, endsLead c := by
  cases h with
  | subject t => simp
  -- the two leads that are not empty are those of a path and of a datatype
  | predicate _ hLead => exact Token.endsLead_pathLead lead hLead
  | object t => simp
  | datatype _ hLead => exact Token.endsLead_datatypeLead lead hLead
  | filter _ hLead =>
    intro c hc
    rw [List.getLast?_append, Option.mem_def, Option.or_eq_some_iff] at hc
    rcases hc with hc | ⟨hNone, -⟩
    · exact Token.endsLead_datatypeLead _ hLead c hc
    · rw [List.getLast?_eq_none_iff.mp hNone, ← Pattern.acceptsEmpty_iff] at hLead
      exact absurd hLead (by decide)

-- ---------------------------------------------------------------------------
-- Fragments in the text of a query
-- ---------------------------------------------------------------------------

theorem Element.linesOfAll_eq (depth : Int) (elements : List Element) :
    Element.linesOfAll depth elements = elements.flatMap (Element.lines depth) := by
  induction elements with
  | nil => rfl
  | cons e rest ih => rw [Element.linesOfAll, ih, List.flatMap_cons]

/-- A line with `UNION` stands before each branch behind the first one. -/
theorem Branch.furtherLines_eq (depth : Int) (branches : List Branch) :
    Branch.furtherLines depth branches =
      branches.flatMap fun b => indented depth "UNION" :: b.lines depth := by
  induction branches with
  | nil => rfl
  | cons b rest ih => rw [Branch.furtherLines, ih, List.flatMap_cons]

/-- A line of a branch is a line of the union it stands in. -/
theorem Branch.mem_unionLines {depth : Int} {b : Branch} {branches : List Branch} {l : String}
    (hb : b ∈ branches) (hl : l ∈ b.lines depth) : l ∈ Branch.unionLines depth branches := by
  cases branches with
  | nil => cases hb
  | cons c rest =>
    rw [Branch.unionLines, Branch.furtherLines_eq, List.mem_append]
    rcases List.mem_cons.mp hb with rfl | hb
    · exact .inl hl
    · exact .inr (List.mem_flatMap.mpr ⟨b, hb, List.mem_cons_of_mem _ hl⟩)

/-- Every element of a group or inside it is written at some depth. -/
theorem Group.lines_of_mem {e : Element} : ∀ g : Group, ∀ h ∈ g.all, e ∈ h.elements →
    ∀ depth, ∃ d, ∀ l ∈ e.lines d, l ∈ g.bodyLines depth := by
  suffices hAll : TreeInduction
      (fun g => ∀ h ∈ g.all, e ∈ h.elements → ∀ depth, ∃ d, ∀ l ∈ e.lines d, l ∈ g.bodyLines depth)
      (fun f => ∀ h ∈ f.groups, e ∈ h.elements → ∀ depth, ∃ d, ∀ l ∈ e.lines d, l ∈ f.lines depth)
      (fun b => ∀ h ∈ b.groups, e ∈ h.elements → ∀ depth, ∃ d, ∀ l ∈ e.lines d, l ∈ b.lines depth)
      from hAll.onGroup
  constructor
  case members =>
    intro origin elements ih h hh he depth
    rw [Group.bodyLines, Element.linesOfAll_eq]
    -- the element is one of the group's own, or stands below one of them
    rcases Group.mem_all.mp hh with rfl | ⟨f, hf, hhf⟩
    · exact ⟨depth, fun l hl => List.mem_flatMap.mpr ⟨e, he, hl⟩⟩
    · obtain ⟨d, hd⟩ := ih f hf h hhf he depth
      exact ⟨d, fun l hl => List.mem_flatMap.mpr ⟨f, hf, hd l hl⟩⟩
  case triple => intro t h hh; cases hh
  case filter => intro f h hh; cases hh
  case bind => intro b h hh; cases hh
  case optional =>
    intro g ih h hh he depth
    obtain ⟨d, hd⟩ := ih h hh he (depth + 1)
    exact ⟨d, fun l hl => by simp [Element.lines, hd l hl]⟩
  case union =>
    intro branches ih h hh he depth
    obtain ⟨b, hb, hhb⟩ := Branch.mem_groupsOfAll.mp hh
    obtain ⟨d, hd⟩ := ih b hb h hhb he depth
    exact ⟨d, fun l hl => Branch.mem_unionLines hb (hd l hl)⟩
  case nested =>
    intro b ih h hh he depth
    exact ih h hh he depth
  case group =>
    intro g ih h hh he depth
    obtain ⟨d, hd⟩ := ih h hh he (depth + 1)
    exact ⟨d, fun l hl => by simp [Branch.lines, hd l hl]⟩
  case select =>
    intro q ih h hh he depth
    obtain ⟨prefixes, projection, body, modifiers, distinct⟩ := q
    obtain ⟨d, hd⟩ := ih h hh he (depth + 1 + 1)
    exact ⟨d, fun l hl => by simp [Branch.lines, SelectQuery.lines, hd l hl]⟩

/-- The indentation of a line leaves its first word free. -/
theorem leavesFree_indentation (depth : Int) :
    LeavesFree (List.replicate (2 * depth.toNat) ' ') := by
  intro c hc
  obtain ⟨-, rfl⟩ := List.mem_replicate.mp (List.mem_of_mem_getLast? hc)
  decide

theorem toList_indented (depth : Int) (line : String) :
    (indented depth line).toList = List.replicate (2 * depth.toNat) ' ' ++ line.toList := by
  simp [indented]

/-- The text of a triple: its three terms and the period, with a blank before each. -/
theorem Triple.toList_text (t : Triple) :
    t.text.toList = t.subject.toList ++ [' '] ++ t.predicate.toList ++ [' '] ++ t.object.toList ++
      [' ', '.'] := by
  simp [Triple.text]

/-- A fragment is written out in a line of its element, and what is before it leaves it free. -/
theorem Element.Leads.line {e : Element} {lead rest : List Char} (h : e.Leads lead rest)
    (depth : Int) : ∃ l ∈ e.lines depth, ∃ u v,
      l.toList = u ++ (lead ++ rest) ++ v ∧ LeavesFree u := by
  have hSpace : joinsName ' ' = false := by decide
  have hIndent := leavesFree_indentation depth
  -- one case for each place a name can lead, with what stands before it in its line
  cases h with
  | subject t =>
    refine ⟨_, List.mem_singleton_self _, _,
      [' '] ++ t.predicate.toList ++ [' '] ++ t.object.toList ++ [' ', '.'], ?_, hIndent⟩
    rw [toList_indented, Triple.toList_text]
    simp
  | @predicate t _ _ hRest _ =>
    refine ⟨_, List.mem_singleton_self _, _, [' '] ++ t.object.toList ++ [' ', '.'], ?_,
      hIndent.append (leavesFree_concat (u := t.subject.toList) hSpace)⟩
    rw [toList_indented, Triple.toList_text, hRest]
    simp
  | object t =>
    refine ⟨_, List.mem_singleton_self _, _, [' ', '.'], ?_, hIndent.append
      (leavesFree_concat (u := t.subject.toList ++ [' '] ++ t.predicate.toList) hSpace)⟩
    rw [toList_indented, Triple.toList_text]
    simp
  | @datatype t _ _ hRest _ =>
    refine ⟨_, List.mem_singleton_self _, _, [' ', '.'], ?_, hIndent.append
      (leavesFree_concat (u := t.subject.toList ++ [' '] ++ t.predicate.toList) hSpace)⟩
    rw [toList_indented, Triple.toList_text, hRest]
    simp
  | filter hRest _ =>
    refine ⟨_, List.mem_singleton_self _, _, [')'], ?_, hIndent.append
      (leavesFree_concat (u := "FILTER".toList) (c := '(') (by decide))⟩
    rw [toList_indented, String.toList_append, String.toList_append, hRest]
    simp

/-- A line stands in the text of all lines, and what is before it leaves it free. -/
theorem mem_lines_intercalate {l : String} {lines : List String} (h : l ∈ lines) :
    ∃ u v, ("\n".intercalate lines).toList = u ++ l.toList ++ v ∧ LeavesFree u := by
  induction lines with
  | nil => cases h
  | cons first rest ih =>
    rcases List.mem_cons.mp h with rfl | h
    · cases rest with
      | nil => exact ⟨[], [], by simp, leavesFree_nil⟩
      -- the line stands first: nothing in front of it
      | cons second rest =>
        exact ⟨[], '\n' :: ("\n".intercalate (second :: rest)).toList, by simp, leavesFree_nil⟩
    · obtain ⟨u, v, hText, hFree⟩ := ih h
      -- it stands further on: the first line and its line feed come before it
      have hSome : rest ≠ [] := by rintro rfl; cases h
      refine ⟨(first.toList ++ ['\n']) ++ u, v, ?_, (leavesFree_concat (by decide)).append hFree⟩
      rw [String.intercalate_cons_of_ne_nil hSome]
      simp [hText]

/-- A name stands free in the text of a query, unless it follows a slash. -/
theorem Element.Leads.standsFree {q : SelectQuery} {g : Group} {e : Element}
    {name lead rest : List Char} (hg : g ∈ q.body.all) (he : e ∈ g.elements)
    (h : e.Leads lead (name ++ ':' :: rest)) (hSlash : lead.getLast? ≠ some '/') :
    StandsFree (name ++ [':']) q.bodyText.toList := by
  obtain ⟨d, hd⟩ := Group.lines_of_mem q.body g hg he 1
  obtain ⟨l, hl, u, v, hLine, hu⟩ := h.line d
  have hQuery : l ∈ q.lines 0 := by
    obtain ⟨prefixes, projection, body, modifiers, distinct⟩ := q
    simp [SelectQuery.lines, hd l hl]
  obtain ⟨x, y, hText, hx⟩ := mem_lines_intercalate hQuery
  refine ⟨x ++ u ++ lead, rest ++ v ++ y, ?_, (hx.append hu).append ?_⟩
  · rw [SelectQuery.bodyText, hText, hLine]
    simp
  · intro c hc
    exact h.ends c hc fun hEq => hSlash (hEq ▸ hc)

end SparqlSelect
