import Mathlib.Data.List.Basic
import SparqlSelect.Fragment.Kind
import SparqlSelect.Fragment.Term
import SparqlSelect.Proofs.Pattern.Longest

/-!
# Local names

A datatype is abbreviated to a prefix and the local name of its IRI, the longest end of the IRI
without a separator. It is found from two searches that know nothing of each other, for the last `#`
and for the last `/`: what follows the later of the two has neither.

A datatype that has a prefix already is left alone. The test for that looks at one line, so a line
feed after such a name is left, too, although the name with the line feed is not a name any more.
An abbreviation of plain parts passes the test, and the stricter one for names in a query.

* `IsLocalName`, `isLocalName_localName` — the longest end without a separator.
* `matches_abbreviation` — a prefix, a colon and plain characters.
* `abbreviateDatatype_names` — what an abbreviation is.
-/

namespace SparqlSelect

open Pattern

-- ---------------------------------------------------------------------------
-- The last occurrence of a character
-- ---------------------------------------------------------------------------

section

variable {c : Char} {s : List Char}

/-- There is no last place exactly when the character is missing. -/
theorem lastPlace?_eq_none_iff : lastPlace? c s = none ↔ c ∉ s := by
  induction s with
  | nil => simp [lastPlace?]
  | cons d s ih =>
    rw [lastPlace?, List.mem_cons, not_or]
    cases hRest : lastPlace? c s with
    | some place =>
      rw [hRest] at ih
      simp [← ih]
    | none =>
      -- nothing further on: the character is found here or not at all
      have hOut : c ∉ s := ih.mp hRest
      by_cases hd : d = c
      · simp [hd]
      · simp [hd, hOut, Ne.symm hd]

/-- A text is split at the last occurrence of a character. -/
theorem exists_of_lastPlace? {place : Nat} (h : lastPlace? c s = some place) :
    ∃ before after, s = before ++ c :: after ∧ before.length = place ∧ c ∉ after := by
  -- a later place counts from the next character, the last one is here if there is none
  induction s generalizing place with
  | nil => cases h
  | cons d s ih =>
    rw [lastPlace?] at h
    cases hRest : lastPlace? c s with
    | some later =>
      rw [hRest] at h
      cases h
      obtain ⟨before, after, rfl, hLength, hOut⟩ := ih hRest
      exact ⟨d :: before, after, rfl, by rw [List.length_cons, hLength], hOut⟩
    | none =>
      simp only [hRest] at h
      split at h
      · rename_i hd
        cases h
        exact ⟨[], s, by rw [beq_iff_eq.mp hd]; rfl, rfl, lastPlace?_eq_none_iff.mp hRest⟩
      · cases h

end

-- ---------------------------------------------------------------------------
-- The longest end without a separator
-- ---------------------------------------------------------------------------

/-- The longest end of an IRI in which there is neither a `#` nor a `/`. -/
structure IsLocalName (iri name : List Char) : Prop where
  suffix : name <:+ iri
  noHash : '#' ∉ name
  noSlash : '/' ∉ name
  longest : ∀ t, t <:+ iri → '#' ∉ t → '/' ∉ t → t.length ≤ name.length

/-- What follows a separator is a local name if there is no other separator in it. -/
theorem isLocalName_after {sep : Char} {before after : List Char} (hSep : sep = '#' ∨ sep = '/')
    (hHash : '#' ∉ after) (hSlash : '/' ∉ after) :
    IsLocalName (before ++ sep :: after) after where
  suffix := ⟨before ++ [sep], by rw [List.append_assoc, List.singleton_append]⟩
  noHash := hHash
  noSlash := hSlash
  longest t ht hNoHash hNoSlash := by
    by_contra hLonger
    -- a longer end takes in the separator
    have hTail : sep :: after <:+ t := by
      refine List.suffix_of_suffix_length_le (List.suffix_append before _) ht ?_
      rw [List.length_cons]
      omega
    have hMem : sep ∈ t := hTail.subset List.mem_cons_self
    rcases hSep with rfl | rfl
    · exact hNoHash hMem
    · exact hNoSlash hMem

/-- What is not in the rest of a text after some place is not in its rest after a later one. -/
theorem not_mem_after_later {c d e : Char} {before after before' after' : List Char}
    (hSplit : before ++ c :: after = before' ++ d :: after')
    (hLater : before'.length ≤ before.length) (hOut : e ∉ after') : e ∉ after := by
  have hLength := congrArg List.length hSplit
  simp only [List.length_append, List.length_cons] at hLength
  have hAfter : after <:+ before' ++ d :: after' := by
    rw [← hSplit]
    exact ⟨before ++ [c], by rw [List.append_assoc, List.singleton_append]⟩
  have hAfter' : after' <:+ before' ++ d :: after' :=
    ⟨before' ++ [d], by rw [List.append_assoc, List.singleton_append]⟩
  -- two ends of one text, the shorter of which lies within the longer
  have hWithin : after <:+ after' :=
    List.suffix_of_suffix_length_le hAfter hAfter' (by omega)
  intro hMem
  exact hOut (hWithin.subset hMem)

theorem drop_after {c : Char} (before after : List Char) :
    (before ++ c :: after).drop (before.length + 1) = after := by
  rw [← List.drop_drop, List.drop_left, List.drop_one, List.tail_cons]

/-- The two searches find the longest end without a separator. -/
theorem isLocalName_localName (iri : List Char) : IsLocalName iri (localName iri) := by
  unfold localName
  cases hHash : lastPlace? '#' iri with
  | none =>
    have hNoHash : '#' ∉ iri := lastPlace?_eq_none_iff.mp hHash
    cases hSlash : lastPlace? '/' iri with
    | none =>
      exact ⟨List.suffix_rfl, hNoHash, lastPlace?_eq_none_iff.mp hSlash,
        fun t ht _ _ => ht.length_le⟩
    | some slash =>
      obtain ⟨before, after, rfl, rfl, hNoSlash⟩ := exists_of_lastPlace? hSlash
      dsimp only
      rw [drop_after]
      refine isLocalName_after (.inr rfl) ?_ hNoSlash
      intro hMem
      exact hNoHash (List.mem_append_right _ (List.mem_cons_of_mem _ hMem))
  | some hash =>
    obtain ⟨before, after, hSplit, hLength, hNoHash⟩ := exists_of_lastPlace? hHash
    cases hSlash : lastPlace? '/' iri with
    | none =>
      have hNoSlash : '/' ∉ iri := lastPlace?_eq_none_iff.mp hSlash
      subst hSplit hLength
      dsimp only
      rw [drop_after]
      refine isLocalName_after (.inl rfl) hNoHash ?_
      intro hMem
      exact hNoSlash (List.mem_append_right _ (List.mem_cons_of_mem _ hMem))
    | some slash =>
      obtain ⟨before', after', hSplit', hLength', hNoSlash⟩ := exists_of_lastPlace? hSlash
      have hBoth := hSplit.symm.trans hSplit'
      dsimp only
      -- the later separator is the last of either kind
      by_cases hLater : slash < hash
      · rw [if_pos hLater, ← hLength, hSplit, drop_after]
        exact isLocalName_after (.inl rfl) hNoHash
          (not_mem_after_later hBoth (by omega) hNoSlash)
      · rw [if_neg hLater, ← hLength', hSplit', drop_after]
        exact isLocalName_after (.inr rfl)
          (not_mem_after_later hBoth.symm (by omega) hNoHash) hNoSlash

-- ---------------------------------------------------------------------------
-- Names with a prefix
-- ---------------------------------------------------------------------------

/-- A text passes the test of a line if it matches, or if what stands before a line feed at its end
does. -/
theorem acceptsLine_iff {p : Pattern} {s : List Char} :
    p.acceptsLine s = true ↔ Matches p s ∨ ∃ t, s = t ++ ['\n'] ∧ Matches p t := by
  rw [acceptsLine, Bool.or_eq_true, Bool.and_eq_true, beq_iff_eq, accepts_iff, accepts_iff]
  refine or_congr_right ?_
  constructor
  · rintro ⟨hLast, hMatch⟩
    obtain ⟨t, rfl⟩ := List.getLast?_eq_some_iff.mp hLast
    rw [List.dropLast_concat] at hMatch
    exact ⟨t, rfl, hMatch⟩
  · rintro ⟨t, rfl, hMatch⟩
    rw [List.getLast?_concat, List.dropLast_concat]
    exact ⟨rfl, hMatch⟩

/-- The characters of a word that occurs in a text are in the text. -/
theorem subset_of_occursIn {w s : List Char} (h : occursIn w s = true) : w ⊆ s := by
  induction s with
  | nil =>
    rw [occursIn, List.isEmpty_iff] at h
    rw [h]
    exact List.Subset.refl []
  | cons c s ih =>
    rw [occursIn, Bool.or_eq_true, List.isPrefixOf_iff_prefix] at h
    -- the word begins here, or all of its characters are found further on
    rcases h with hHere | hLater
    · exact hHere.subset
    · intro d hd
      exact List.mem_cons_of_mem _ (ih hLater hd)

/-- Two slashes are not in a name with a prefix, so looking for them decides nothing. -/
theorem occursIn_slashes {s : List Char} (h : Token.plainPrefixedName.acceptsLine s = true) :
    occursIn ['/', '/'] s = false := by
  have hNoSlash : '/' ∉ s := by
    rcases acceptsLine_iff.mp h with hMatch | ⟨t, rfl, hMatch⟩
    · exact not_mem_of_excludes hMatch (by decide)
    · intro hMem
      rcases List.mem_append.mp hMem with hIn | hEnd
      · exact not_mem_of_excludes hMatch (by decide) hIn
      · exact absurd hEnd (by decide)
  by_contra hOccurs
  exact hNoSlash (subset_of_occursIn (eq_true_of_ne_false hOccurs) List.mem_cons_self)

/-- What is taken for a prefixed name already is returned as it is. -/
theorem abbreviateDatatype_of_line {datatype : String} (namePrefix : String)
    (h : Token.plainPrefixedName.acceptsLine datatype.toList = true) :
    abbreviateDatatype datatype namePrefix = datatype := by
  simp [abbreviateDatatype, h, occursIn_slashes h]

/-- Everything else is cut to its local name behind the given prefix. -/
theorem abbreviateDatatype_of_not_line {datatype : String} (namePrefix : String)
    (h : Token.plainPrefixedName.acceptsLine datatype.toList = false) :
    abbreviateDatatype datatype namePrefix =
      namePrefix ++ ":" ++ String.ofList (localName datatype.toList) := by
  simp [abbreviateDatatype, h]

/-- A text with something in front of it is another text. -/
theorem ne_abbreviation (namePrefix : String) (iri : List Char) :
    '#' ∉ iri → '/' ∉ iri → namePrefix.toList ++ ':' :: localName iri ≠ iri := by
  intro hHash hSlash hSame
  have hWhole := (isLocalName_localName iri).longest iri List.suffix_rfl hHash hSlash
  have hLength := congrArg List.length hSame
  rw [List.length_append, List.length_cons] at hLength
  omega

/-- Characters of a local name that needs no escape: those of words, the hyphen and the dot. -/
def isPlainNamePart (c : Char) : Bool := isWordPart c || c == '-' || c == '.'

section

variable {front name : List Char}

/-- A run of characters of one class, not empty. -/
theorem matches_oneOrMore_chars {k : CharClass} (hSome : name ≠ [])
    (h : ∀ c ∈ name, k.contains c = true) : Matches (oneOrMore (chars k)) name := by
  cases name with
  | nil => exact absurd rfl hSome
  | cons c rest =>
    obtain ⟨hc, hRest⟩ := List.forall_mem_cons.mp h
    exact .seq (s := [c]) (.chars hc) (matches_many_chars hRest)

/-- The characters of plain names are in every class that allows the hyphen and the period. -/
theorem contains_of_isPlainNamePart {others : List Char} {c : Char} (hHyphen : '-' ∈ others)
    (hDot : '.' ∈ others) (h : isPlainNamePart c = true) :
    (CharClass.word.plus others).contains c = true := by
  simp only [isPlainNamePart, Bool.or_eq_true, beq_iff_eq] at h
  rw [CharClass.contains_plus, CharClass.contains, Bool.or_eq_true, List.contains_iff_mem]
  rcases h with (hWord | rfl) | rfl
  · exact .inl hWord
  · exact .inr hHyphen
  · exact .inr hDot

/-- A prefix, a colon and plain characters are a name with a prefix, for both tests. -/
theorem matches_abbreviation (hFront : Matches Token.prefixName front) (hSome : name ≠ [])
    (hPlain : ∀ c ∈ name, isPlainNamePart c = true) :
    Matches Token.plainPrefixedName (front ++ ':' :: name) ∧
      Matches Token.prefixedName (front ++ ':' :: name) := by
  have hColon : Matches (char ':') [':'] := .chars rfl
  have hSplit : front ++ ':' :: name = (front ++ [':']) ++ name := by
    rw [List.append_assoc, List.singleton_append]
  -- both forms of a prefixed name read the local name by the same class of characters
  rw [hSplit]
  have hLocal {others : List Char} (hHyphen : '-' ∈ others) (hDot : '.' ∈ others) :
      Matches (oneOrMore (chars (CharClass.word.plus others))) name :=
    matches_oneOrMore_chars hSome fun c hc =>
      contains_of_isPlainNamePart hHyphen hDot (hPlain c hc)
  constructor
  · exact .seq (.seq hFront hColon) (hLocal (by decide) (by decide))
  · exact .seq (.seq (.left hFront) hColon) (hLocal (by decide) (by decide))

end

theorem toList_abbreviation (namePrefix : String) (name : List Char) :
    (namePrefix ++ ":" ++ String.ofList name).toList = namePrefix.toList ++ ':' :: name := by
  simp [String.toList_append]

/-- A datatype is abbreviated to a prefix, a colon and the longest end of it without a separator,
except if it is a name with a prefix already, or one with a line feed after it. If the prefix is one
and the end consists of plain characters, the abbreviation is a name with a prefix, and abbreviating
it again changes nothing. -/
theorem abbreviateDatatype_names (datatype namePrefix : String) :
    let name := localName datatype.toList
    let abbreviation := namePrefix ++ ":" ++ String.ofList name
    IsLocalName datatype.toList name ∧
      (abbreviateDatatype datatype namePrefix = abbreviation ↔
        ¬ Matches Token.plainPrefixedName datatype.toList ∧
          ∀ t, datatype.toList = t ++ ['\n'] → ¬ Matches Token.plainPrefixedName t) ∧
      (Kind.prefixName.accepts namePrefix.toList = true → name ≠ [] →
        (∀ c ∈ name, isPlainNamePart c = true) →
        Kind.prefixedName.accepts abbreviation.toList = true ∧
          ∀ other, abbreviateDatatype abbreviation other = abbreviation) := by
  dsimp only
  refine ⟨isLocalName_localName _, ?_, ?_⟩
  · have hTest : (¬ Matches Token.plainPrefixedName datatype.toList ∧
        ∀ t, datatype.toList = t ++ ['\n'] → ¬ Matches Token.plainPrefixedName t) ↔
        Token.plainPrefixedName.acceptsLine datatype.toList = false := by
      rw [← Bool.not_eq_true, acceptsLine_iff]
      grind
    rw [hTest]
    constructor
    · intro hAbbreviated
      by_contra hLine
      have hLine := eq_true_of_ne_false hLine
      rw [abbreviateDatatype_of_line namePrefix hLine] at hAbbreviated
      have hSame := congrArg String.toList hAbbreviated
      rw [toList_abbreviation] at hSame
      -- a name with a prefix has no separator, so all of it would be the local name
      have hExcluded (d : Char) (hd : Token.plainPrefixedName.excludes d = true)
          (hFeed : d ≠ '\n') : d ∉ datatype.toList := by
        rcases acceptsLine_iff.mp hLine with hMatch | ⟨t, hEnd, hMatch⟩
        · exact not_mem_of_excludes hMatch hd
        · rw [hEnd, List.mem_append, List.mem_singleton, not_or]
          exact ⟨not_mem_of_excludes hMatch hd, hFeed⟩
      exact ne_abbreviation namePrefix datatype.toList (hExcluded '#' (by decide) (by decide))
        (hExcluded '/' (by decide) (by decide)) hSame.symm
    · exact abbreviateDatatype_of_not_line namePrefix
  · intro hPrefix hSome hPlain
    obtain ⟨hLine, hName⟩ := matches_abbreviation (accepts_iff.mp hPrefix) hSome hPlain
    rw [← toList_abbreviation] at hLine hName
    refine ⟨accepts_iff.mpr hName, fun other => ?_⟩
    exact abbreviateDatatype_of_line other (acceptsLine_iff.mpr (.inl hLine))

/-- The `#` of this IRI comes before its last `/`, so it does not count. -/
theorem abbreviateDatatype_names_dateTime :
    abbreviateDatatype "http://example.org/a#b/dateTime" "xsd" = "xsd:dateTime" ∧
      Kind.prefixedName.accepts "xsd:dateTime".toList = true ∧
      ∀ other, abbreviateDatatype "xsd:dateTime" other = "xsd:dateTime" := by
  obtain ⟨-, hNames, hPlain⟩ := abbreviateDatatype_names "http://example.org/a#b/dateTime" "xsd"
  refine ⟨hNames.mpr ⟨?_, ?_⟩, hPlain (by decide) (by decide) (List.all_eq_true.mp (by decide))⟩
  · intro hMatch
    exact absurd (accepts_iff.mpr hMatch) (by decide)
  · intro t hEnd
    have hLast := congrArg List.getLast? hEnd
    rw [List.getLast?_concat] at hLast
    exact absurd hLast (by decide)

/-- A name with a line feed after it is no name with a prefix, but it is left as it is. -/
theorem line_feed_kept :
    Kind.prefixedName.accepts "xsd:float\n".toList = false ∧
      Token.plainPrefixedName.accepts "xsd:float\n".toList = false ∧
      IsLocalName "xsd:float\n".toList "xsd:float\n".toList ∧
      abbreviateDatatype "xsd:float\n" "xsd" ≠ "xsd" ++ ":" ++ "xsd:float\n" :=
  ⟨by decide, by decide, isLocalName_localName "xsd:float\n".toList, by decide⟩

end SparqlSelect
