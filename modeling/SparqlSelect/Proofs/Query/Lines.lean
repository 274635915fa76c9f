import Mathlib
import SparqlSelect.Proofs.Fragment.Comparison
import SparqlSelect.Proofs.Fragment.Spacing
import SparqlSelect.Proofs.Query.Prologue

/-!
# What a line tells

Whatever the depth, the first word of a line tells what the line is: a keyword, a brace or the start
of a function is no subject of a triple. The rest of the line then tells the fragments in it, since
of two that stand side by side one holds no space.

* `LineKind.of` — what a line is, with a lemma for each line that is written.
* `filter_inj`, `Binding.text_inj` — the lines of filters and bindings tell what is in them, as
  those of triples do (`Triple.text_inj`).
* `intercalate_inj` — a list of texts without spaces is told from what it is with spaces between.
* `selectLine_inj`, `Modifier.text_inj` — the lines around the pattern of a query that selects
  variables and is modified by variables and integers (`SelectQuery.IsPlain`).
-/

namespace SparqlSelect

open Pattern

-- ---------------------------------------------------------------------------
-- Kinds of lines
-- ---------------------------------------------------------------------------

/-- What a line is, as far as its first word tells: triples and modifiers are the others. -/
inductive LineKind where
  | filter
  | bind
  | optional
  | opening
  | closing
  | union
  | select
  | other
deriving DecidableEq

/-- What stands before the first space of a line, its indentation apart. -/
def firstWord (line : List Char) : List Char := (line.dropWhile (· == ' ')).takeWhile (· != ' ')

namespace LineKind

/-- The first words of lines that begin alike. -/
def words : List (List Char × LineKind) :=
  [("OPTIONAL".toList, optional), ("\x7b".toList, opening), ("\x7d".toList, closing),
   ("UNION".toList, union), ("SELECT".toList, select)]

/-- What a line with some first word is. -/
def ofWord (w : List Char) : LineKind :=
  if "FILTER(".toList.isPrefixOf w then filter
  else if "BIND(".toList.isPrefixOf w then bind
  else (words.lookup w).getD other

/-- What a line is. -/
def of (line : String) : LineKind := ofWord (firstWord line.toList)

/-- A line is the same at every depth. -/
@[simp] theorem of_indented (depth : Int) (line : String) : of (indented depth line) = of line := by
  rw [of, firstWord, toList_indented, List.dropWhile_append_of_pos, of, firstWord]
  intro c hc
  rw [(List.mem_replicate.mp hc).2]
  rfl

/-- The first word of a line that starts with it. -/
theorem firstWord_append {c : Char} {w rest : List Char} (hc : c ≠ ' ') (hw : ' ' ∉ c :: w) :
    firstWord (c :: w ++ ' ' :: rest) = c :: w := by
  have hPass : ∀ d ∈ c :: w, (d != ' ') = true := fun d hd =>
    bne_iff_ne.mpr fun hSame => hw (hSame ▸ hd)
  rw [firstWord, List.cons_append, List.dropWhile_cons_of_neg (by simpa using hc),
    ← List.cons_append, List.takeWhile_append_of_pos hPass]
  simp

/-- What a line is whose first word is known. -/
theorem of_eq_ofWord {line : String} {c : Char} {w : List Char} (hc : c ≠ ' ')
    (hw : ' ' ∉ c :: w) (hLine : c :: w ++ [' '] <+: line.toList) : of line = ofWord (c :: w) := by
  obtain ⟨rest, hRest⟩ := hLine
  rw [of, ← hRest, List.append_assoc, List.singleton_append, firstWord_append hc hw]

@[simp] theorem of_filter (e : String) : of ("FILTER(" ++ e ++ ")") = filter := by
  simp [of, firstWord, ofWord]

@[simp] theorem of_bind (b : Binding) : of b.text = bind := by
  simp [of, firstWord, ofWord, Binding.text]

@[simp] theorem of_selectLine (projection : List String) (distinct : Bool) :
    of (selectLine projection distinct) = select :=
  of_eq_ofWord (c := 'S') (w := "ELECT".toList) (by decide) (by decide) (by simp [selectLine])

@[simp] theorem of_modifier (m : Modifier) : of m.text = other := by
  cases m with
  | groupBy terms =>
    exact of_eq_ofWord (c := 'G') (w := "ROUP".toList) (by decide) (by decide)
      (by simp [Modifier.text])
  | orderBy keys =>
    exact of_eq_ofWord (c := 'O') (w := "RDER".toList) (by decide) (by decide)
      (by simp [Modifier.text])
  | limit count =>
    exact of_eq_ofWord (c := 'L') (w := "IMIT".toList) (by decide) (by decide)
      (by simp [Modifier.text])

/-- No subject is a keyword, and none starts with the name of a function. -/
theorem ofWord_subject {v : String} (h : Kind.acceptsAny Kind.forSubject v = true) :
    ofWord v.toList = other := by
  have hText := Kind.matches_of_subject h
  -- no subject starts like one of the keywords
  have hStart {u : List Char} (hu : u.foldl step [Token.var ||| Token.iri ||| Token.prefixedName] =
      []) : u.isPrefixOf v.toList = false := by
    rw [Bool.eq_false_iff, ne_eq, List.isPrefixOf_iff_prefix]
    rintro ⟨s, hs⟩
    exact not_matches_append hu s (hs ▸ hText)
  -- nor is it one of the words that stand alone
  have hWord : words.lookup v.toList = none := by
    rw [List.lookup_eq_none_iff]
    intro entry hEntry
    have hNone : (Token.var ||| Token.iri ||| Token.prefixedName).accepts entry.1 = false := by
      revert entry
      decide
    rw [bne_iff_ne]
    intro hSame
    rw [← hSame, accepts_iff.mpr hText] at hNone
    cases hNone
  rw [ofWord, hStart (by decide), hStart (by decide), hWord]
  rfl

/-- A triple is none of the lines that are told by a word. -/
theorem of_triple {t : Triple} (h : Kind.acceptsAny Kind.forSubject t.subject = true) :
    of t.text = other := by
  have hText := Kind.matches_of_subject h
  have hWord := ofWord_subject h
  have hSpace := space_not_mem_subject h
  have hLine : t.text.toList =
      t.subject.toList ++ ' ' :: (t.predicate.toList ++ ' ' :: t.object.toList ++ [' ', '.']) := by
    simp [Triple.text]
  cases hSubject : t.subject.toList with
  -- an empty subject is refused, so the line begins with the word of its subject
  | nil =>
    rw [hSubject, ← acceptsEmpty_iff] at hText
    cases hText
  | cons c w =>
    rw [hSubject] at hWord hSpace hLine
    have hc : c ≠ ' ' := fun hSame => hSpace (by simp [hSame])
    rw [of_eq_ofWord hc hSpace (by rw [hLine]; simp), hWord]

end LineKind

-- ---------------------------------------------------------------------------
-- Filters and bindings
-- ---------------------------------------------------------------------------

/-- Equal filter lines have equal expressions. -/
theorem filter_inj {e e' : String} (h : "FILTER(" ++ e ++ ")" = "FILTER(" ++ e' ++ ")") : e = e' :=
  String.toList_inj.mp (by simpa using congrArg String.toList h)

/-- A variable holds no space. -/
theorem space_not_mem_var {v : String} (h : Kind.acceptsAny [.var] v = true) : ' ' ∉ v.toList :=
  fun hMem => absurd (isBlank_of_matches (Kind.acceptsAny_var_iff.mp h) (by decide) ' ' hMem)
    (by decide)

/-- Bindings to variables are told from their texts: the variable starts behind the last space. -/
theorem Binding.text_inj {b b' : Binding} (hVar : Kind.acceptsAny [.var] b.var = true)
    (hVar' : Kind.acceptsAny [.var] b'.var = true) (h : b.text = b'.text) : b = b' := by
  have hSplit (b : Binding) : b.text.toList =
      "BIND(".toList ++ (b.expression.toList ++ " AS".toList ++ ' ' :: b.var.toList) ++ [')'] := by
    simp [Binding.text]
  have hText := congrArg String.toList h
  rw [hSplit, hSplit] at hText
  obtain ⟨hExpression, hName⟩ := concat_append_inj (space_not_mem_var hVar)
    (space_not_mem_var hVar') (List.append_cancel_left (List.append_cancel_right hText))
  obtain ⟨e, v⟩ := b
  obtain ⟨e', v'⟩ := b'
  rw [Binding.mk.injEq]
  exact ⟨String.toList_inj.mp (List.append_cancel_right hExpression), String.toList_inj.mp hName⟩

-- ---------------------------------------------------------------------------
-- Lists with spaces between their members
-- ---------------------------------------------------------------------------

/-- A text that is not empty and holds no space. -/
def Unspaced (item : String) : Prop := item ≠ "" ∧ ' ' ∉ item.toList

section

variable {item v : String} {items items' : List String}

/-- A variable has no blank in it. -/
theorem unspaced_of_var (h : Kind.acceptsAny [.var] v = true) : Unspaced v := by
  refine ⟨?_, space_not_mem_var h⟩
  rintro rfl
  exact absurd h (by decide)

/-- What is written with spaces between starts as its first member. -/
theorem head?_intercalate (items : List String) (hSome : item ≠ "") :
    (" ".intercalate (item :: items)).toList.head? = item.toList.head? := by
  have hText : item.toList ≠ [] := fun hNone => hSome (String.toList_inj.mp hNone)
  cases items with
  | nil => simp
  | cons second rest =>
    rw [String.intercalate_cons_of_ne_nil (by simp), String.append_assoc, String.toList_append,
      List.head?_append_of_ne_nil _ hText]

/-- Lists of texts without spaces are told from what they are with spaces between. -/
theorem intercalate_inj (h : ∀ item ∈ items, Unspaced item) (h' : ∀ item ∈ items', Unspaced item)
    (hText : " ".intercalate items = " ".intercalate items') : items = items' := by
  -- the text is empty only if there is no item
  have hEmpty {items : List String} (h : ∀ item ∈ items, Unspaced item)
      (hNone : " ".intercalate items = "") : items = [] := by
    cases items with
    | nil => rfl
    | cons item rest =>
      have hSome := (h item List.mem_cons_self).1
      have hHead := head?_intercalate rest hSome
      rw [hNone] at hHead
      exact absurd (String.toList_inj.mp (List.head?_eq_none_iff.mp hHead.symm)) hSome
  -- the items are what stands between the blanks
  have hSplit {items : List String} (h : ∀ item ∈ items, Unspaced item) (hSome : items ≠ []) :
      (" ".intercalate items).toList.splitOn ' ' = items.map String.toList := by
    rw [String.toList_intercalate]
    refine List.splitOn_intercalate ' ' ?_ (by simpa using hSome)
    rintro _ hl
    obtain ⟨item, hItem, rfl⟩ := List.mem_map.mp hl
    exact (h item hItem).2
  by_cases hNone : items = []
  · rw [hNone] at hText ⊢
    exact (hEmpty h' hText.symm).symm
  by_cases hNone' : items' = []
  · rw [hNone'] at hText ⊢
    exact hEmpty h hText
  have hLists : items.map String.toList = items'.map String.toList := by
    rw [← hSplit h hNone, ← hSplit h' hNone', hText]
  exact List.map_injective_iff.mpr (fun _ _ hSame => String.toList_inj.mp hSame) hLists

end

-- ---------------------------------------------------------------------------
-- Queries around their patterns
-- ---------------------------------------------------------------------------

/-- A modifier of variables, or a limit that is an integer. -/
def Modifier.IsPlain : Modifier → Prop
  | .groupBy terms => ∀ v ∈ terms, Kind.acceptsAny [.var] v = true
  | .orderBy keys => ∀ key ∈ keys, Kind.acceptsAny [.var] key.1 = true
  | .limit count => ∃ n, count = .int n

/-- A query that selects variables and is modified by variables and integers. -/
@[mk_iff]
structure SelectQuery.IsPlain (q : SelectQuery) : Prop where
  projection : ∀ v ∈ q.projection, Kind.acceptsAny [.var] v = true
  modifiers : ∀ m ∈ q.modifiers, m.IsPlain

/-- What is selected as it is written. -/
def selectedText (projection : List String) : String :=
  if projection.isEmpty then "*" else " ".intercalate projection

section

variable {projection projection' : List String} {distinct distinct' : Bool}

/-- A selection of variables starts with an asterisk or with the mark of a variable. -/
theorem head?_selectedText (h : ∀ v ∈ projection, Kind.acceptsAny [.var] v = true) :
    ∃ c, (selectedText projection).toList.head? = some c ∧ (c = '*' ↔ projection = []) ∧
      c ≠ 'D' := by
  cases projection with
  | nil => exact ⟨'*', rfl, by simp, by decide⟩
  | cons v rest =>
    have hVar := h v List.mem_cons_self
    obtain ⟨mark, name, hName, hMark⟩ :=
      Comparison.exists_of_matches_var (Kind.acceptsAny_var_iff.mp hVar)
    refine ⟨mark, ?_, ?_⟩
    · change (" ".intercalate (v :: rest)).toList.head? = some mark
      rw [head?_intercalate rest (unspaced_of_var hVar).1, hName]
      rfl
    · rcases hMark with rfl | rfl <;> simp

/-- No selection of variables starts as the keyword before it does. -/
theorem selectedText_ne_distinct (h : ∀ v ∈ projection, Kind.acceptsAny [.var] v = true)
    (rest : List Char) : (selectedText projection).toList ≠ "DISTINCT ".toList ++ rest := by
  obtain ⟨c, hHead, -, hc⟩ := head?_selectedText h
  intro hSame
  rw [hSame] at hHead
  exact hc (Option.some.inj hHead).symm

/-- A projection of variables is read back from its text: the blanks in it are the separators. -/
theorem selectedText_inj (h : ∀ v ∈ projection, Kind.acceptsAny [.var] v = true)
    (h' : ∀ v ∈ projection', Kind.acceptsAny [.var] v = true)
    (hText : selectedText projection = selectedText projection') : projection = projection' := by
  obtain ⟨c, hHead, hAll, -⟩ := head?_selectedText h
  obtain ⟨c', hHead', hAll', -⟩ := head?_selectedText h'
  -- the keyword or the first variable tells whether anything was selected
  obtain rfl : c = c' := by
    rw [hText, hHead'] at hHead
    exact (Option.some.inj hHead).symm
  by_cases hNone : projection = []
  · rw [hNone, hAll'.mp (hAll.mpr hNone)]
  · have hNone' : ¬ projection' = [] := fun hEmpty => hNone (hAll.mp (hAll'.mpr hEmpty))
    rw [selectedText, selectedText, if_neg (by simpa using hNone),
      if_neg (by simpa using hNone')] at hText
    exact intercalate_inj (fun v hv => unspaced_of_var (h v hv))
      (fun v hv => unspaced_of_var (h' v hv)) hText

/-- A selection of variables is told from its line. -/
theorem selectLine_inj (h : ∀ v ∈ projection, Kind.acceptsAny [.var] v = true)
    (h' : ∀ v ∈ projection', Kind.acceptsAny [.var] v = true)
    (hLine : selectLine projection distinct = selectLine projection' distinct') :
    projection = projection' ∧ distinct = distinct' := by
  have hSplit (projection : List String) (distinct : Bool) :
      (selectLine projection distinct).toList = "SELECT ".toList ++
        ((if distinct then "DISTINCT " else "").toList ++ (selectedText projection).toList) := by
    rw [selectLine, String.toList_append, String.toList_append, List.append_assoc]
    rfl
  have hText := congrArg String.toList hLine
  rw [hSplit, hSplit] at hText
  replace hText := List.append_cancel_left hText
  -- a projection never starts like the keyword
  cases distinct with
  | true =>
    cases distinct' with
    | true =>
      exact ⟨selectedText_inj h h' (String.toList_inj.mp (List.append_cancel_left hText)), rfl⟩
    | false => exact absurd hText.symm (selectedText_ne_distinct h' _)
  | false =>
    cases distinct' with
    | true => exact absurd hText (selectedText_ne_distinct h _)
    | false => exact ⟨selectedText_inj h h' (String.toList_inj.mp hText), rfl⟩

end

/-- A sort key is told from what it is written as. -/
theorem sortKey_inj {key key' : String × Direction}
    (h : key.2.keyword ++ "(" ++ key.1 ++ ")" = key'.2.keyword ++ "(" ++ key'.1 ++ ")") :
    key = key' := by
  obtain ⟨v, d⟩ := key
  obtain ⟨v', d'⟩ := key'
  have hText := congrArg String.toList h
  cases d with
  | ascending =>
    cases d' with
    | ascending => simpa [Direction.keyword, String.toList_inj] using hText
    | descending => simp [Direction.keyword] at hText
  -- the keywords differ in their first letter
  | descending =>
    cases d' with
    | ascending => simp [Direction.keyword] at hText
    | descending => simpa [Direction.keyword, String.toList_inj] using hText

/-- A sort key over a variable has no blank in it. -/
theorem unspaced_sortKey {key : String × Direction} (h : Kind.acceptsAny [.var] key.1 = true) :
    Unspaced (key.2.keyword ++ "(" ++ key.1 ++ ")") := by
  have hSpace := space_not_mem_var h
  refine ⟨fun hNone => ?_, ?_⟩
  · simpa using congrArg String.toList hNone
  · cases hKey : key.2 <;> simpa [Direction.keyword] using hSpace

/-- Modifiers of variables and integers are told from their lines. -/
theorem Modifier.text_inj {m m' : Modifier} (h : m.IsPlain) (h' : m'.IsPlain)
    (hText : m.text = m'.text) : m = m' := by
  have hList := congrArg String.toList hText
  -- the keywords tell the kinds apart, and behind them the items are told by their blanks
  cases m with
  | groupBy terms =>
    cases m' with
    | groupBy terms' =>
      have hTerms : " ".intercalate terms = " ".intercalate terms' :=
        String.toList_inj.mp (by simpa [text] using hList)
      rw [intercalate_inj (fun v hv => unspaced_of_var (h v hv))
        (fun v hv => unspaced_of_var (h' v hv)) hTerms]
    | orderBy _ | limit _ => simp [text] at hList
  | orderBy keys =>
    cases m' with
    | orderBy keys' =>
      have hUnspaced {keys : List (String × Direction)} (h : (orderBy keys).IsPlain) :
          ∀ item ∈ keys.map fun key => key.2.keyword ++ "(" ++ key.1 ++ ")", Unspaced item :=
        List.forall_mem_map.mpr fun key hKey => unspaced_sortKey (h key hKey)
      have hKeys := intercalate_inj (hUnspaced h) (hUnspaced h')
        (String.toList_inj.mp (by simpa [text] using hList))
      rw [List.map_injective_iff.mpr (fun _ _ hKey => sortKey_inj hKey) hKeys]
    | groupBy _ | limit _ => simp [text] at hList
  | limit count =>
    cases m' with
    | limit count' =>
      obtain ⟨n, rfl⟩ := h
      obtain ⟨n', rfl⟩ := h'
      have hNumber : toString n = toString n' :=
        String.toList_inj.mp (by simpa [text, limitText, Json.toInteger] using hList)
      rw [Int.repr_inj.mp hNumber]
    | groupBy _ | orderBy _ => simp [text] at hList

end SparqlSelect
