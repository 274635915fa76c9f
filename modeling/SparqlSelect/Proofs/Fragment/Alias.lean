import Mathlib.Data.List.TakeWhile
import SparqlSelect.Function.Call
import SparqlSelect.Proofs.Fragment.Kinds
import SparqlSelect.Proofs.Pattern.Blanks
import SparqlSelect.Proofs.Pattern.Longest
import SparqlSelect.Proofs.Unicode.Case

/-!
# Aliases of calls

The alias of a call is made from the name of its function and its variable. It is not checked on its
own, only as the end of the item `(call AS alias)`. The pattern of such an item does not say where
the call ends: a name that brings brackets of its own can hold what passes for the rest of the call,
and then only the last part of the alias is read as a variable.

Without an opening bracket in the name this cannot happen. The call ends where it should, no white
space comes into the alias that could hide a part of it, and the alias is a variable.

* `Sheltered` — behind each white space stands a quote or a closing bracket.
* `matches_resultVar` — an alias that is read as a variable from its start.
* `resultVar_accepted_iff` — when the alias of an item that was accepted is a variable.
* `resultVar_eq_of_selectItem_eq` — calls with the same item have the same alias.
-/

namespace SparqlSelect

open Pattern

-- ---------------------------------------------------------------------------
-- White space that is sheltered
-- ---------------------------------------------------------------------------

/-- What may close a text or a circle. -/
def isCloser (c : Char) : Bool := c == '"' || c == '\'' || c == ')'

/-- Behind each white space in a text stands a quote or a closing bracket. -/
def Sheltered (s : List Char) : Prop :=
  ∀ t b y, s = t ++ b :: y → isBlank b = true → ∃ d ∈ y, isCloser d = true

section

variable {s u : List Char} {c : Char}

/-- A text without a blank shelters all of them. -/
theorem sheltered_of_none (h : ∀ c ∈ s, isBlank c = false) : Sheltered s := by
  rintro t b y rfl hb
  rw [h b (by simp)] at hb
  cases hb

/-- A text is sheltered if no white space comes after one of its quotes or closing brackets. -/
theorem sheltered_of_closer {r : List Char} (hc : isCloser c = true)
    (hr : ∀ d ∈ r, isBlank d = false) : Sheltered (u ++ c :: r) := by
  have hNone : isBlank c = false := by
    simp only [isCloser, Bool.or_eq_true, beq_iff_eq] at hc
    rcases hc with (rfl | rfl) | rfl <;> decide
  intro t b y hSplit hb
  rcases List.append_eq_append_iff.mp hSplit with ⟨w, rfl, hw⟩ | ⟨w, rfl, hw⟩
  · -- white space would come after the closer
    have hMem : b ∈ c :: r := by simp [hw]
    rcases List.mem_cons.mp hMem with rfl | hMem
    · rw [hNone] at hb
      cases hb
    · rw [hr b hMem] at hb
      cases hb
  · cases w with
    | nil =>
      obtain ⟨rfl, -⟩ := List.cons.inj hw
      rw [hNone] at hb
      cases hb
    | cons d w =>
      obtain ⟨rfl, rfl⟩ := List.cons.inj hw
      exact ⟨c, by simp, hc⟩

theorem Sheltered.suffix (h : Sheltered (u ++ s)) : Sheltered s := by
  rintro t b y rfl hb
  exact h (u ++ t) b y (by simp) hb

/-- A text stays sheltered when its first character is replaced by others, unless these bring white
space. -/
theorem Sheltered.replaceFirst (h : Sheltered (c :: s))
    (hImages : ∀ d ∈ u, isBlank d = true → d = c) : Sheltered (u ++ s) := by
  intro t b y hSplit hb
  rcases List.append_eq_append_iff.mp hSplit with ⟨w, rfl, hw⟩ | ⟨w, rfl, hw⟩
  · exact h (c :: w) b y (by rw [hw]; rfl) hb
  · cases w with
    | nil => exact h [c] b y (by simpa using hw.symm) hb
    | cons d w =>
      obtain ⟨rfl, rfl⟩ := List.cons.inj hw
      obtain rfl := hImages b (by simp) hb
      obtain ⟨d, hd, hCloser⟩ := h [] b s rfl hb
      exact ⟨d, List.mem_append_right _ hd, hCloser⟩

end

-- ---------------------------------------------------------------------------
-- Objects and their bare names
-- ---------------------------------------------------------------------------

/-- Quoted texts end in their quote. -/
theorem exists_of_matches_text {s : List Char} (h : Matches Token.text s) :
    ∃ t c, s = t ++ [c] ∧ isCloser c = true := by
  have hQuoted (quote : Char) (hQuote : Matches (Token.quotedBy quote) s) :
      ∃ t, s = t ++ [quote] := by
    obtain ⟨t, u, -, hClose, rfl⟩ := matches_seq_iff.mp hQuote
    obtain ⟨c, hc, rfl⟩ := matches_chars_iff.mp hClose
    exact ⟨t, by rw [beq_iff_eq.mp hc]⟩
  rcases matches_alt_iff.mp h with h | h
  · obtain ⟨t, rfl⟩ := hQuoted _ h
    exact ⟨t, _, rfl, rfl⟩
  · obtain ⟨t, rfl⟩ := hQuoted _ h
    exact ⟨t, _, rfl, rfl⟩

/-- White space in the object of a triple is sheltered. -/
theorem sheltered_of_object {v : String} (h : Kind.acceptsAny Kind.forObject v = true) :
    Sheltered v.toList := by
  -- only texts, circles and polygons can hold white space, and each of them ends in a closer
  rcases Kind.acceptsAny_forObject_iff.mp h with
    hVar | hIri | hName | hNative | hCircle | hPolygon
  · exact sheltered_of_none (isBlank_of_matches hVar (by decide))
  · exact sheltered_of_none (isBlank_of_matches hIri (by decide))
  · exact sheltered_of_none (isBlank_of_matches hName (by decide))
  · rcases matches_alt_iff.mp hNative with hPlain | hText
    · exact sheltered_of_none (isBlank_of_matches hPlain (by decide))
    · obtain ⟨t, tail, hText, hTail, hSplit⟩ := matches_seq_iff.mp hText
      obtain ⟨t, c, rfl, hc⟩ := exists_of_matches_text hText
      rw [hSplit, List.append_assoc]
      exact sheltered_of_closer hc (isBlank_of_matches hTail (by decide))
  · obtain ⟨t, u, -, hClose, hSplit⟩ := matches_seq_iff.mp hCircle
    obtain ⟨c, hc, rfl⟩ := matches_chars_iff.mp hClose
    rw [hSplit]
    exact sheltered_of_closer (by rw [← beq_iff_eq.mp hc]; rfl) (by simp)
  · obtain ⟨t, u, -, hEnd, hSplit⟩ := matches_seq_iff.mp hPolygon
    have hBlank := isBlank_of_matches hEnd (by decide)
    obtain rfl : u = "))".toList ++ '"' :: "^^geo:wktLiteral".toList := eq_of_matches_word hEnd
    rw [hSplit, ← List.append_assoc]
    exact sheltered_of_closer rfl (List.forall_mem_cons.mp (List.forall_mem_append.mp hBlank).2).2

/-- Whether a character marks a variable. -/
def isMark (c : Char) : Bool := c == '?' || c == '$'

/-- What holds of both variable marks holds of every mark. -/
theorem forall_isMark {P : Char → Prop} (hQuestion : P '?') (hDollar : P '$') :
    ∀ c, isMark c = true → P c := by
  intro c hc
  rcases Bool.or_eq_true_iff.mp hc with hc | hc
  · rwa [beq_iff_eq.mp hc]
  · rwa [beq_iff_eq.mp hc]

/-- A variable: a mark, a letter that can start a name, and name characters. -/
theorem matches_varOf_iff {letters : CharClass} {x : List Char} :
    Matches (Token.varOf letters) x ↔ ∃ m n rest, x = m :: n :: rest ∧ isMark m = true ∧
      (Token.nameStart letters).contains n = true ∧ Matches (many (chars .word)) rest := by
  -- the class in the pattern is the two marks
  have hMarks (c : Char) : (CharClass.anyOf '?' ['$']).contains c = isMark c := by
    rw [CharClass.contains_anyOf, List.contains_cons, List.contains_cons, List.contains_nil,
      Bool.or_false, isMark]
  constructor
  · intro h
    obtain ⟨_, rest, hStart, hRest, rfl⟩ := matches_seq_iff.mp h
    obtain ⟨_, _, hMark, hName, rfl⟩ := matches_seq_iff.mp hStart
    obtain ⟨m, hm, rfl⟩ := matches_chars_iff.mp hMark
    obtain ⟨n, hn, rfl⟩ := matches_chars_iff.mp hName
    exact ⟨m, n, rest, rfl, hMarks m ▸ hm, hn, hRest⟩
  · rintro ⟨m, n, rest, rfl, hm, hn, hRest⟩
    exact .seq (s := [m, n]) (.seq (s := [m]) (.chars (hMarks m ▸ hm)) (.chars hn)) hRest

/-- The bare name is what is left once the marks in front are stripped. -/
theorem FunctionCall.toList_bareName (v : String) :
    (bareName v).toList = v.toList.dropWhile isMark := String.toList_ofList

/-- The bare name of an object is there and does not start with a mark. -/
theorem exists_of_object {v : String} (h : Kind.acceptsAny Kind.forObject v = true) :
    ∃ u d rest, v.toList = u ++ d :: rest ∧ v.toList.dropWhile isMark = d :: rest ∧
      isMark d = false := by
  -- only variables start with a mark
  have hPlain {p : Pattern} (hText : Matches p v.toList) (hSome : p.acceptsEmpty = false)
      (hMark : ∀ c, isMark c = true → p.following c = []) :
      ∃ u d rest, v.toList = u ++ d :: rest ∧ v.toList.dropWhile isMark = d :: rest ∧
        isMark d = false := by
    cases hList : v.toList with
    | nil =>
      rw [hList, ← acceptsEmpty_iff, hSome] at hText
      cases hText
    | cons d rest =>
      have hd : isMark d = false := by
        rw [Bool.eq_false_iff]
        intro hd
        rw [hList] at hText
        exact not_matches_cons (hMark d hd) rest hText
      exact ⟨[], d, rest, rfl, by simp [hd], hd⟩
  rcases Kind.acceptsAny_forObject_iff.mp h with
    hVar | hIri | hName | hNative | hCircle | hPolygon
  · obtain ⟨m, n, rest, hSplit, hm, hn, -⟩ := matches_varOf_iff.mp hVar
    have hNoMark : isMark n = false := by
      rw [Bool.eq_false_iff]
      intro hMark
      exact forall_isMark (P := fun c => (Token.nameStart .letter).contains c ≠ true) (by decide)
        (by decide) n hMark hn
    exact ⟨[m], n, rest, hSplit, by simp [hSplit, hm, hNoMark], hNoMark⟩
  · exact hPlain hIri rfl (forall_isMark (by decide) (by decide))
  · exact hPlain hName rfl (forall_isMark (by decide) (by decide))
  · exact hPlain hNative rfl (forall_isMark (by decide) (by decide))
  · exact hPlain hCircle rfl (forall_isMark (by decide) (by decide))
  · exact hPlain hPolygon rfl (forall_isMark (by decide) (by decide))

-- ---------------------------------------------------------------------------
-- The two halves of an alias
-- ---------------------------------------------------------------------------

/-- No case mapping leads to a blank. -/
theorem isUnreached_of_isBlank {c : Char} (h : isBlank c = true) :
    Unicode.isUnreached c.toNat = true := by
  obtain ⟨r, hr, hn⟩ := Unicode.exists_of_inRanges h
  exact Unicode.isUnreached_iff.mpr ⟨r, List.mem_append_left _ hr, hn⟩

/-- The second half of an alias: no mark at its start, and no white space that is not sheltered. -/
theorem upperFirst_bareName {v : String} (h : Kind.acceptsAny Kind.forObject v = true) :
    Sheltered (upperFirst (FunctionCall.bareName v)).toList ∧
      ∃ d rest, (upperFirst (FunctionCall.bareName v)).toList = d :: rest ∧ isMark d = false := by
  obtain ⟨u, d, rest, hSplit, hBare, hMark⟩ := exists_of_object h
  rw [toList_upperFirst ((FunctionCall.toList_bareName v).trans hBare)]
  refine ⟨?_, ?_⟩
  · have hShelter := sheltered_of_object h
    rw [hSplit] at hShelter
    exact hShelter.suffix.replaceFirst fun b hb hBlank =>
      Unicode.eq_of_mem_upperOf hb (isUnreached_of_isBlank hBlank)
  · cases hUpper : Unicode.upperOf d with
    | nil => exact absurd hUpper (Unicode.upperOf_ne_nil d)
    | cons e images =>
      refine ⟨e, images ++ rest, rfl, ?_⟩
      rw [Bool.eq_false_iff]
      intro he
      -- a mark is the image of nothing but itself
      have hSame : e = d := Unicode.eq_of_mem_upperOf (by simp [hUpper])
        (forall_isMark (P := fun c => Unicode.isUnreached c.toNat = true) rfl rfl e he)
      rw [← hSame, he] at hMark
      cases hMark

/-- The first half of an alias is there, and does not start with one of the four characters that are
a letter in one of their cases only. -/
theorem capitalize_lowerCase {name : String} (h : name ≠ "") :
    ∃ d rest, (capitalize (lowerCase name)).toList = d :: rest ∧
      ((Token.nameStart Token.anyCaseLetter).contains d = true →
        (Token.nameStart .letter).contains d = true) := by
  obtain ⟨c, rest, hLower⟩ : ∃ c rest, (lowerCase name).toList = c :: rest := by
    cases hName : name.toList with
    | nil => exact absurd (String.toList_eq_nil_iff.mp hName) h
    | cons c rest =>
      rw [lowerCase, String.toList_ofList, hName, Unicode.lowerAfter]
      refine List.exists_cons_of_ne_nil (List.append_ne_nil_of_left_ne_nil ?_ _)
      split
      · simp
      · exact Unicode.lowerOf_ne_nil c
  obtain ⟨d, images, hTitle⟩ := List.exists_cons_of_ne_nil (Unicode.titleOf_ne_nil c)
  refine ⟨d, images ++ Unicode.lowerAfter [c] rest, ?_, fun hStart => ?_⟩
  · rw [toList_capitalize hLower, hTitle]
    rfl
  -- each of the four is changed by one of the two mappings, and nothing is mapped to it
  have hChanged (hUnreached : Unicode.isUnreached d.toNat = true) :
      d ∈ Unicode.titleOf d ∧ d ∈ Unicode.lowerOf d := by
    have hMem : d ∈ Unicode.titleOf c := by simp [hTitle]
    refine ⟨Unicode.mem_titleOf_self hMem hUnreached, ?_⟩
    rw [← Unicode.eq_of_mem_titleOf hMem hUnreached] at hLower
    rw [lowerCase, String.toList_ofList] at hLower
    exact (Unicode.mem_of_mem_lowerAfter (by rw [hLower]; exact List.mem_cons_self) hUnreached).2
  have hMapped : ['\u017F', '\u212A', '\u0130', '\u0131'].all (fun e =>
      Unicode.isUnreached e.toNat && !((Unicode.titleOf e).contains e &&
        (Unicode.lowerOf e).contains e)) = true := by decide +kernel
  have hNone : ∀ e ∈ ['\u017F', '\u212A', '\u0130', '\u0131'], e ≠ d := by
    intro e he hSame
    rw [hSame] at he
    obtain ⟨hUnreached, hNot⟩ := Bool.and_eq_true_iff.mp (List.all_eq_true.mp hMapped d he)
    obtain ⟨hFirst, hSecond⟩ := hChanged hUnreached
    simp [hFirst, hSecond] at hNot
  simp only [Token.nameStart, Token.anyCaseLetter, CharClass.contains_plus, Bool.or_eq_true,
    List.contains_iff_mem] at hStart ⊢
  rcases hStart with (hLetter | hOther) | hUnderscore
  · exact .inl hLetter
  · exact absurd rfl (hNone _ hOther)
  · exact .inr hUnderscore

-- ---------------------------------------------------------------------------
-- The item of a call
-- ---------------------------------------------------------------------------

/-- What stands between the bracket of an assignment and the first bracket of its call. -/
def calledName : Pattern :=
  blanks ++ (optional (char '!') ++ blanks ++ chars (Token.nameStart Token.anyCaseLetter) ++
    many (chars .word) ++ blanks)

/-- The start of an assignment is a name and a bracket; its end is a variable after white space. -/
theorem exists_of_matches_assignment {s : List Char} (h : Matches Token.assignment s) :
    (∃ name args, Matches calledName name ∧ s = '(' :: (name ++ '(' :: args)) ∧
      ∃ init b x gap, isBlank b = true ∧ Matches (Token.varOf Token.anyCaseLetter) x ∧
        Matches blanks gap ∧ s = init ++ b :: (x ++ gap) ++ [')'] := by
  -- from the end to the start, token by token
  obtain ⟨_, _, hToGap, hClose, rfl⟩ := matches_seq_iff.mp h
  obtain ⟨_, gap, hToVar, hGap, rfl⟩ := matches_seq_iff.mp hToGap
  obtain ⟨_, x, hToBlanks, hVar, rfl⟩ := matches_seq_iff.mp hToVar
  obtain ⟨_, between, hToKeyword, hBetween, rfl⟩ := matches_seq_iff.mp hToBlanks
  obtain ⟨_, keyword, hToBefore, -, rfl⟩ := matches_seq_iff.mp hToKeyword
  obtain ⟨_, before, hToCall, -, rfl⟩ := matches_seq_iff.mp hToBefore
  obtain ⟨_, _, hStart, hCall, rfl⟩ := matches_seq_iff.mp hToCall
  obtain ⟨_, blank, hOpen, hBlank, rfl⟩ := matches_seq_iff.mp hStart
  obtain ⟨_, close, hToArgs, -, rfl⟩ := matches_seq_iff.mp hCall
  obtain ⟨_, args, hToBracket, -, rfl⟩ := matches_seq_iff.mp hToArgs
  obtain ⟨name, _, hName, hBracket, rfl⟩ := matches_seq_iff.mp hToBracket
  obtain rfl := eq_of_matches_word (w := ['(']) hOpen
  obtain rfl := eq_of_matches_word (w := ['(']) hBracket
  obtain rfl := eq_of_matches_word (w := [')']) hClose
  obtain ⟨init, b, rfl, hb⟩ := exists_of_matches_someBlanks hBetween
  refine ⟨⟨blank ++ name, args ++ close ++ before ++ keyword ++ init ++ b :: (x ++ gap) ++ [')'],
    .seq hBlank hName, by simp⟩, '(' :: (blank ++ name ++ '(' :: (args ++ close)) ++ before ++
    keyword ++ init, b, x, gap, hb, hVar, hGap, by simp⟩

namespace FunctionCall

variable {c : FunctionCall}

theorem toList_resultVar (c : FunctionCall) :
    c.resultVar.toList = '?' ::
      ((capitalize (lowerCase c.function)).toList ++ (upperFirst (bareName c.var)).toList) := by
  simp [resultVar]

theorem toList_selectItem (c : FunctionCall) :
    c.selectItem.toList =
      '(' :: (c.function.toList ++ '(' :: (c.var.toList ++ ") AS".toList)) ++
        ' ' :: c.resultVar.toList ++ [')'] := by
  simp [selectItem, text]

/-- An item that was accepted is an assignment. -/
theorem matches_assignment_of_accepted (h : Kind.acceptsAny Kind.forSelect c.selectItem = true) :
    Matches Token.assignment c.selectItem.toList := by
  rcases Kind.acceptsAny_forSelect_iff.mp h with hVar | ⟨hAssignment, -⟩
  · rw [toList_selectItem] at hVar
    exact absurd hVar (not_matches_cons (by decide) _)
  · exact hAssignment

/-- The name of a function without brackets is what the pattern takes for it. -/
theorem matches_calledName (h : Kind.acceptsAny Kind.forSelect c.selectItem = true)
    (hPlain : '(' ∉ c.function.toList) : Matches calledName c.function.toList := by
  obtain ⟨⟨name, args, hName, hSplit⟩, -⟩ :=
    exists_of_matches_assignment (matches_assignment_of_accepted h)
  have hFree : '(' ∉ name := not_mem_of_excludes hName (by decide)
  rw [toList_selectItem, List.append_assoc, List.cons_append, List.append_assoc] at hSplit
  obtain ⟨hSame, -⟩ := append_cons_inj hPlain hFree (List.cons.inj hSplit).2
  exact hSame ▸ hName

/-- Of an alias, what comes after its last white space is read as a variable. -/
theorem exists_of_accepted (h : Kind.acceptsAny Kind.forSelect c.selectItem = true) :
    ∃ start x gap, c.resultVar.toList = start ++ (x ++ gap) ∧
      Matches (Token.varOf Token.anyCaseLetter) x ∧ Matches blanks gap ∧
      (start = [] ∨ ∃ t b, start = t ++ [b] ∧ isBlank b = true) := by
  obtain ⟨-, init, b, x, gap, hb, hx, hGap, hSplit⟩ :=
    exists_of_matches_assignment (matches_assignment_of_accepted h)
  have hNoBlank : ∀ d ∈ x, isBlank d = false := isBlank_of_matches hx (by decide)
  have hAllBlank : ∀ d ∈ gap, isBlank d = true := isBlank_of_matches_blanks hGap
  have hMark : '?' ∈ c.resultVar.toList := by simp [toList_resultVar]
  rw [toList_selectItem, List.append_left_inj] at hSplit
  rcases List.append_eq_append_iff.mp hSplit with ⟨u, -, hu⟩ | ⟨u, -, hu⟩
  · cases u with
    | nil => exact ⟨[], x, gap, (List.cons.inj hu).2, hx, hGap, .inl rfl⟩
    | cons d u =>
      refine ⟨u ++ [b], x, gap, ?_, hx, hGap, .inr ⟨u, b, rfl, hb⟩⟩
      rw [(List.cons.inj hu).2, List.append_assoc]
      rfl
  · cases u with
    | nil => exact ⟨[], x, gap, (List.cons.inj hu).2.symm, hx, hGap, .inl rfl⟩
    | cons d u =>
      -- the white space before the alias would belong to the variable, or the alias to the gap
      exfalso
      rcases List.append_eq_append_iff.mp (List.cons.inj hu).2 with ⟨v, -, hv⟩ | ⟨v, hv, hRest⟩
      · have hBlank := hAllBlank '?' (by simp [hv, hMark])
        exact absurd hBlank (by decide)
      · cases v with
        | nil =>
          have hBlank := hAllBlank '?' (by rw [← List.nil_append gap, ← hRest]; simp [hMark])
          exact absurd hBlank (by decide)
        | cons e v =>
          have hBlank := hNoBlank ' ' (by rw [hv, ← (List.cons.inj hRest).1]; simp)
          exact absurd hBlank (by decide)

section

variable {x gap : List Char}

/-- Neither a variable nor white space can close anything. -/
theorem not_isCloser_of_mem {d : Char} (hx : Matches (Token.varOf Token.anyCaseLetter) x)
    (hGap : ∀ d ∈ gap, isBlank d = true) (hd : d ∈ x ++ gap) : isCloser d = false := by
  rw [Bool.eq_false_iff]
  intro hCloser
  simp only [isCloser, Bool.or_eq_true, beq_iff_eq] at hCloser
  rcases List.mem_append.mp hd with hd | hd
  · rcases hCloser with (rfl | rfl) | rfl <;> exact not_mem_of_excludes hx (by decide) hd
  · have hBlank := hGap d hd
    rcases hCloser with (rfl | rfl) | rfl <;> exact absurd hBlank (by decide)

/-- In the second half of an alias no white space stands before a variable and a gap: it would be
sheltered by something that these do not hold. -/
theorem not_blank_before {t y : List Char} {b : Char}
    (hVar : Kind.acceptsAny Kind.forObject c.var = true)
    (hx : Matches (Token.varOf Token.anyCaseLetter) x) (hGap : ∀ d ∈ gap, isBlank d = true)
    (hHalf : (upperFirst (bareName c.var)).toList = t ++ b :: y) (hy : y ⊆ x ++ gap) :
    isBlank b = false := by
  rw [Bool.eq_false_iff]
  intro hb
  obtain ⟨d, hd, hCloser⟩ := (upperFirst_bareName hVar).1 t b y hHalf hb
  rw [not_isCloser_of_mem hx hGap (hy hd)] at hCloser
  cases hCloser

/-- The second half of an alias does not start as a variable. -/
theorem second_ne_var (hVar : Kind.acceptsAny Kind.forObject c.var = true)
    (hx : Matches (Token.varOf Token.anyCaseLetter) x) :
    (upperFirst (bareName c.var)).toList ≠ x ++ gap := by
  intro hSame
  obtain ⟨-, e, rest, hSecond, hNoMark⟩ := upperFirst_bareName hVar
  obtain ⟨m, n, others, rfl, hm, -⟩ := matches_varOf_iff.mp hx
  rw [hSecond] at hSame
  rw [(List.cons.inj hSame).1, hm] at hNoMark
  cases hNoMark

/-- The first half of an alias holds no mark, as the name of a function has none. -/
theorem mark_not_mem_first (hName : Matches calledName c.function.toList) :
    ∀ m, isMark m = true → m ∉ (capitalize (lowerCase c.function)).toList := by
  have hNot {d : Char} (hd : Unicode.isUnreached d.toNat = true)
      (hExcludes : calledName.excludes d = true) : d ∉ (capitalize (lowerCase c.function)).toList :=
    fun hMem => not_mem_of_excludes hName hExcludes
      (mem_of_mem_lowerCase (mem_of_mem_capitalize hMem hd) hd)
  exact forall_isMark (P := fun m => m ∉ (capitalize (lowerCase c.function)).toList)
    (hNot (by decide) (by decide)) (hNot (by decide) (by decide))

/-- An alias that is a variable and a gap is the variable alone. -/
theorem gap_eq_nil (hVar : Kind.acceptsAny Kind.forObject c.var = true)
    (hx : Matches (Token.varOf Token.anyCaseLetter) x) (hGap : ∀ d ∈ gap, isBlank d = true)
    (hSplit : c.resultVar.toList = x ++ gap) : gap = [] := by
  rcases List.eq_nil_or_concat gap with rfl | ⟨init, b, rfl⟩
  · rfl
  exfalso
  -- the last character of the gap is the last one of the second half
  obtain ⟨-, e, rest, hSecond, -⟩ := upperFirst_bareName hVar
  obtain ⟨before, last, hLast⟩ :=
    (List.eq_nil_or_concat (upperFirst (bareName c.var)).toList).resolve_left (by simp [hSecond])
  rw [List.concat_eq_append] at hLast
  rw [toList_resultVar, hLast, List.concat_eq_append, ← List.append_assoc, ← List.append_assoc,
    ← List.cons_append] at hSplit
  obtain ⟨-, hEnd⟩ := List.append_inj' hSplit rfl
  rw [(List.cons.inj hEnd).1] at hLast
  have hNot := not_blank_before hVar hx hGap hLast (List.nil_subset _)
  rw [hGap b (by simp)] at hNot
  cases hNot

/-- No part of an alias after white space is a variable and a gap. -/
theorem not_var_after_blank {t : List Char} {b : Char}
    (hVar : Kind.acceptsAny Kind.forObject c.var = true)
    (hName : Matches calledName c.function.toList)
    (hx : Matches (Token.varOf Token.anyCaseLetter) x) (hGap : ∀ d ∈ gap, isBlank d = true)
    (hb : isBlank b = true) : c.resultVar.toList ≠ t ++ b :: (x ++ gap) := by
  intro hSplit
  have hNot {t y : List Char} (hHalf : (upperFirst (bareName c.var)).toList = t ++ b :: y)
      (hy : y ⊆ x ++ gap) : False := by
    rw [not_blank_before hVar hx hGap hHalf hy] at hb
    cases hb
  rw [toList_resultVar] at hSplit
  cases t with
  | nil =>
    rw [← (List.cons.inj hSplit).1] at hb
    exact absurd hb (by decide)
  | cons d t =>
    rw [List.cons_append, List.cons.injEq] at hSplit
    rcases List.append_eq_append_iff.mp hSplit.2 with ⟨u, -, hHalf⟩ | ⟨u, hFirst, hRest⟩
    · exact hNot hHalf (List.Subset.refl _)
    · cases u with
      | nil =>
        rw [List.nil_append] at hRest
        exact hNot (t := []) (by rw [← hRest, List.nil_append]) (List.Subset.refl _)
      | cons f u =>
        -- the white space is in the first half, so the variable starts there or at the second
        rw [List.cons_append, List.cons.injEq] at hRest
        cases u with
        | nil =>
          rw [List.nil_append] at hRest
          exact second_ne_var hVar hx hRest.2.symm
        | cons e u =>
          obtain ⟨m, n, others, rfl, hm, -⟩ := matches_varOf_iff.mp hx
          have hStart : m = e := (List.cons.inj hRest.2).1
          exact mark_not_mem_first hName m hm (by simp [hFirst, hStart])

/-- Without brackets in the name of its function an alias is read as a variable from its start. -/
theorem matches_resultVar (h : Kind.acceptsAny Kind.forSelect c.selectItem = true)
    (hVar : Kind.acceptsAny Kind.forObject c.var = true) (hPlain : '(' ∉ c.function.toList) :
    Matches (Token.varOf Token.anyCaseLetter) c.resultVar.toList := by
  obtain ⟨start, x, gap, hSplit, hx, hGap, hStart⟩ := exists_of_accepted h
  have hGapBlank : ∀ d ∈ gap, isBlank d = true := isBlank_of_matches_blanks hGap
  rcases hStart with rfl | ⟨t, b, rfl, hb⟩
  · rw [List.nil_append] at hSplit
    rw [hSplit, gap_eq_nil hVar hx hGapBlank hSplit, List.append_nil]
    exact hx
  · rw [List.append_assoc, List.singleton_append] at hSplit
    exact absurd hSplit
      (not_var_after_blank hVar (matches_calledName h hPlain) hx hGapBlank hb)

end

/-- An alias that may be selected is a variable, so it holds no brackets. -/
theorem bracket_not_mem_resultVar (h : Kind.acceptsAny Kind.forSelect c.resultVar = true) :
    '(' ∉ c.resultVar.toList := by
  rcases Kind.acceptsAny_forSelect_iff.mp h with hAlias | ⟨hAlias, -⟩
  · exact not_mem_of_excludes hAlias (by decide)
  · rw [toList_resultVar] at hAlias
    exact absurd hAlias (not_matches_cons (by decide) _)

section

variable {d : Char}

/-- What is the same in every case goes from the name of the function into the alias. -/
theorem mem_resultVar_of_mem_function (hFixed : Unicode.isFixed d = true)
    (h : d ∈ c.function.toList) : d ∈ c.resultVar.toList := by
  rw [toList_resultVar]
  exact List.mem_cons_of_mem _ (List.mem_append_left _ (mem_capitalize_lowerCase hFixed h))

/-- What is the same in every case and no mark goes from the variable into the alias. -/
theorem mem_resultVar_of_mem_var (hFixed : Unicode.isFixed d = true) (hMark : isMark d = false)
    (h : d ∈ c.var.toList) : d ∈ c.resultVar.toList := by
  have hBare : d ∈ (bareName c.var).toList := by
    rw [toList_bareName]
    rw [← List.takeWhile_append_dropWhile (p := isMark) (l := c.var.toList)] at h
    refine (List.mem_append.mp h).resolve_left fun hMarks => ?_
    rw [List.mem_takeWhile_imp hMarks] at hMark
    cases hMark
  rw [toList_resultVar]
  exact List.mem_cons_of_mem _ (List.mem_append_right _ (mem_upperFirst hFixed hBare))

/-- What no letter becomes comes into the alias from the function or from the variable. -/
theorem mem_of_mem_resultVar (hUnreached : Unicode.isUnreached d.toNat = true) (hMark : d ≠ '?')
    (h : d ∈ c.resultVar.toList) : d ∈ c.function.toList ∨ d ∈ c.var.toList := by
  rw [toList_resultVar] at h
  rcases List.mem_append.mp ((List.mem_cons.mp h).resolve_left hMark) with h | h
  · exact .inl (mem_of_mem_lowerCase (mem_of_mem_capitalize h hUnreached) hUnreached)
  · have hBare := mem_of_mem_upperFirst h hUnreached
    rw [toList_bareName] at hBare
    exact .inr ((List.dropWhile_sublist _).subset hBare)

end

/-- An item whose call has another alias too has no brackets but those of the item and its call. -/
theorem bracket_not_mem_function {d : FunctionCall} (hSame : d.selectItem = c.selectItem)
    (h : Kind.acceptsAny Kind.forSelect d.resultVar = true) : '(' ∉ c.function.toList := by
  have hAlias := bracket_not_mem_resultVar h
  have hFixed : Unicode.isFixed '(' = true :=
    Unicode.isFixed_of_isCaseless (Unicode.isCaseless_of_mem (by simp))
  have hFunction : '(' ∉ d.function.toList :=
    fun h => hAlias (mem_resultVar_of_mem_function hFixed h)
  have hVar : '(' ∉ d.var.toList := fun h => hAlias (mem_resultVar_of_mem_var hFixed rfl h)
  -- the item of `d` holds two brackets, so there is none left for the name
  have hCount := congrArg (fun item : String => item.toList.count '(') hSame
  simp only [toList_selectItem, List.count_append, List.count_cons, List.count_eq_zero.mpr hAlias,
    List.count_eq_zero.mpr hFunction, List.count_eq_zero.mpr hVar] at hCount
  refine List.count_eq_zero.mp ?_
  have hRest : List.count '(' ") AS".toList = 0 := by decide
  have hBlank : ((' ' : Char) == '(') = false := by decide
  have hClose : ((')' : Char) == '(') = false := by decide
  simp only [hRest, hBlank, hClose, beq_self_eq_true, if_true] at hCount
  omega

/-- **When an alias is a variable.** If the item of a call was accepted, and the variable of the
call as the object of a triple, its alias may be selected exactly if the name of the function holds
no opening bracket. -/
theorem resultVar_accepted_iff (h : Kind.acceptsAny Kind.forSelect c.selectItem = true)
    (hVar : Kind.acceptsAny Kind.forObject c.var = true) :
    Kind.acceptsAny Kind.forSelect c.resultVar = true ↔ '(' ∉ c.function.toList := by
  constructor
  · -- a bracket in the function's name goes into the alias, and no alias has one
    exact fun hAlias hBracket => bracket_not_mem_resultVar hAlias
      (mem_resultVar_of_mem_function
        (Unicode.isFixed_of_isCaseless (Unicode.isCaseless_of_mem (by simp))) hBracket)
  · intro hPlain
    obtain ⟨m, n, rest, hSplit, hm, hn, hRest⟩ :=
      matches_varOf_iff.mp (matches_resultVar h hVar hPlain)
    -- the name is not empty, as it is the name of a call
    have hSome : c.function ≠ "" := by
      intro hEmpty
      have hName := matches_calledName h hPlain
      rw [hEmpty] at hName
      exact absurd (acceptsEmpty_iff.mpr hName) (by decide)
    obtain ⟨d, first, hFirst, hLetter⟩ := capitalize_lowerCase hSome
    have hStart : (Token.nameStart .letter).contains n = true := by
      rw [toList_resultVar, hFirst] at hSplit
      obtain rfl : d = n := (List.cons.inj (List.cons.inj hSplit).2).1
      exact hLetter hn
    exact Kind.acceptsAny_forSelect_iff.mpr
      (.inl (matches_varOf_iff.mpr ⟨m, n, rest, hSplit, hm, hStart, hRest⟩))

-- ---------------------------------------------------------------------------
-- Items and aliases
-- ---------------------------------------------------------------------------

/-- A space comes into an alias from the function or from the variable, and none is lost. -/
theorem count_resultVar (c : FunctionCall) :
    c.resultVar.toList.count ' ' = c.function.toList.count ' ' + c.var.toList.count ' ' := by
  have hSpace : Unicode.isCaseless ' ' = true := Unicode.isCaseless_of_mem (by simp)
  have hBare : (c.var.toList.dropWhile isMark).count ' ' = c.var.toList.count ' ' := by
    have hMarks : (c.var.toList.takeWhile isMark).count ' ' = 0 :=
      List.count_eq_zero.mpr fun hMem => absurd (List.mem_takeWhile_imp hMem) (by decide)
    calc (c.var.toList.dropWhile isMark).count ' '
        = (c.var.toList.takeWhile isMark ++ c.var.toList.dropWhile isMark).count ' ' := by
          rw [List.count_append, hMarks, Nat.zero_add]
      _ = c.var.toList.count ' ' := by rw [List.takeWhile_append_dropWhile]
  rw [toList_resultVar, List.count_cons_of_ne (by decide), List.count_append,
    count_capitalize_lowerCase hSpace, count_upperFirst hSpace, toList_bareName, hBare]

/-- What comes after a space and holds as many spaces as another text is this text, if one of them
is the end of the other. -/
theorem eq_of_cons_eq_append {a a' u : List Char} (h : ' ' :: a = u ++ ' ' :: a')
    (hCount : a.count ' ' = a'.count ' ') : a = a' := by
  cases u with
  | nil => exact (List.cons.inj h).2
  | cons e u =>
    rw [(List.cons.inj h).2, List.append_eq, List.count_append, List.count_cons_self] at hCount
    omega

/-- **The item of a call determines its alias**, whatever the function and the variable hold. As
many spaces stand before the space in front of the alias as in it, so the alias starts after the
same space in equal items. -/
theorem resultVar_eq_of_selectItem_eq {d : FunctionCall} (h : c.selectItem = d.selectItem) :
    c.resultVar = d.resultVar := by
  have hList := congrArg String.toList h
  rw [toList_selectItem, toList_selectItem, List.append_left_inj] at hList
  -- the blanks around the keyword tell the two texts apart, so their numbers in the aliases agree
  have hCount : c.resultVar.toList.count ' ' = d.resultVar.toList.count ' ' := by
    have hAll := congrArg (List.count ' ') hList
    have hKeyword : List.count ' ' ") AS".toList = 1 := by decide
    have hOpen : (('(' : Char) == ' ') = false := by decide
    simp only [List.count_append, List.count_cons, count_resultVar, hKeyword, hOpen,
      beq_self_eq_true, if_true] at hAll ⊢
    simp only [Bool.false_eq_true, if_false] at hAll
    omega
  rw [← String.toList_inj]
  rcases List.append_eq_append_iff.mp hList with ⟨u, -, hu⟩ | ⟨u, -, hu⟩
  · exact eq_of_cons_eq_append hu hCount
  · exact (eq_of_cons_eq_append hu hCount.symm).symm

end FunctionCall

end SparqlSelect
