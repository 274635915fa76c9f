import SparqlSelect.Compile.Subgraph
import SparqlSelect.Proofs.Filter.Conditions
import SparqlSelect.Proofs.Fragment.Sealed

/-!
# What clauses give keeps its braces to itself

The value of a clause goes between the quotes of a literal, and there it may be anything. The names
beside it, the variable, the comparison and the datatype, are written as they are. As long as these
are inert, the expression is sealed, and so is what the bounds on a variable are merged to.

* `translate_eq_some` — where a fragment comes from.
* `expression_sealed`, `mergedExpression_sealed` — expressions on a variable.
-/

namespace SparqlSelect

open Pattern

-- ---------------------------------------------------------------------------
-- Names beside a value
-- ---------------------------------------------------------------------------

theorem trimBoth_subset (drop : Char → Bool) (s : List Char) : trimBoth drop s ⊆ s := by
  intro c hc
  have hMiddle := (List.dropWhile_sublist drop).subset (List.mem_reverse.mp hc)
  exact (List.dropWhile_sublist drop).subset (List.mem_reverse.mp hMiddle)

/-- The symbol of a comparison is one of the known ones, or the comparison itself. -/
theorem inert_comparisonSymbol {comparison : String} (h : Inert comparison) :
    Inert (comparisonSymbol comparison) := by
  unfold comparisonSymbol
  dsimp only
  cases hKnown : comparisonWords.lookup (lowerCase (trim comparison)) with
  | none =>
    intro c hc
    rw [Option.getD_none, trim, String.toList_ofList] at hc
    exact h c (trimBoth_subset _ _ hc)
  | some symbol =>
    obtain ⟨before, after, hEntries, -⟩ := List.lookup_eq_some_iff.mp hKnown
    have hAll : ∀ entry ∈ comparisonWords, Inert entry.2 := by decide
    exact hAll (lowerCase (trim comparison), symbol) (by simp [hEntries])

theorem localName_subset (iri : List Char) : localName iri ⊆ iri := by
  unfold localName
  split
  · exact List.drop_subset _ _
  · exact List.drop_subset _ _
  · exact List.drop_subset _ _
  · exact fun _ hc => hc

theorem inert_abbreviate {datatype namePrefix : Json} {name : String}
    (hPrefix : Inert namePrefix.display) (hDatatype : Inert datatype.display)
    (h : abbreviate datatype namePrefix = .ok name) : Inert name := by
  cases datatype with
  | str s =>
    cases h
    unfold abbreviateDatatype
    dsimp only
    split
    · exact hDatatype
    · refine (hPrefix.append (by decide)).append fun c hc => ?_
      rw [String.toList_ofList] at hc
      exact hDatatype c (localName_subset _ hc)
  | _ => cases h

-- ---------------------------------------------------------------------------
-- Expressions
-- ---------------------------------------------------------------------------

/-- A text is sealed if it is so before and after a quoted value. -/
theorem sealed_quotedIn {before body after : List Char} (hBefore : Sealed before)
    (hBody : QuotedBody body) (hAfter : Sealed after) : Sealed (quotedIn before body after) :=
  hBefore.append (.double hBody.matches_many hAfter)

section

variable {s : Settings} {c : Clause} {e : String}

/-- A clause that gives a fragment is a circle, a polygon or an expression on a variable. -/
theorem translate_eq_some {var datatype : Option Json}
    (h : (s.translate c var datatype).outcome = .ok (some e)) :
    ∃ kind, FilterKind.of c.name = .ok kind ∧
      (kind = .nearby ∧ circleOf s c = .ok (some e) ∨
      kind = .within ∧ polygonOf c = .ok (some e) ∨
      ∃ x, var = some x ∧
        s.expression kind c x.display (datatype.getD s.defaultDatatype) = .ok (some e)) := by
  simp only [Settings.translate, Traced.outcome_bind, Traced.outcome_lift, bind_eq_ok_iff,
    raise_eq_ok_iff] at h
  obtain ⟨name, hName, h⟩ := h
  refine ⟨_, map_eq_ok_iff.mpr ⟨name, hName, rfl⟩, ?_⟩
  -- a fragment or a message: where a fragment is answered, it is the one that was found
  have hMessage {fragment : Option String} {message : String}
      (h : (Settings.orMessage fragment message).outcome = .ok (some e)) : fragment = some e := by
    cases fragment with
    | none => cases h
    | some _ =>
      cases h
      rfl
  generalize FilterKind.ofPlainName (FilterKind.plainName name) = kind at h
  -- the three kinds that answer a fragment: circles, polygons, and expressions on a variable
  cases kind with
  | aggregateFunction | temporalFunction | unsupported => cases h
  | nearby =>
    simp only [Traced.outcome_bind, Traced.outcome_lift, bind_eq_ok_iff, raise_eq_ok_iff] at h
    obtain ⟨fragment, hCircle, h⟩ := h
    exact .inl ⟨rfl, hMessage h ▸ hCircle⟩
  | within =>
    simp only [Traced.outcome_bind, Traced.outcome_lift, bind_eq_ok_iff, raise_eq_ok_iff] at h
    obtain ⟨fragment, hPolygon, h⟩ := h
    exact .inr (.inl ⟨rfl, hMessage h ▸ hPolygon⟩)
  | contain | bound | startMatch | regexMatch | range =>
    cases var with
    | none => cases h
    | some x =>
      dsimp only at h
      split at h
      · cases h
      · exact .inr (.inr ⟨x, rfl, raise_eq_ok_iff.mp h⟩)

variable {x : String} {datatype : Json}

theorem typedLiteral_sealed {value : Json} (hPrefix : Inert s.datatypePrefix.display)
    (hDatatype : Inert datatype.display) (h : s.typedLiteral value datatype = .ok e) :
    Sealed e.toList := by
  obtain ⟨name, hName, h⟩ := bind_eq_ok_iff.mp h
  cases h
  have hShape : (literalOf value ++ "^^" ++ name).toList =
      quotedIn [] (escapeText value).toList ("^^" ++ name).toList := by
    simp [quotedIn, toList_literalOf]
  have hMark : Inert "^^" := by decide
  rw [hShape]
  exact sealed_quotedIn .nil (quotedBody_escapeText value)
    (hMark.append (inert_abbreviate hPrefix hDatatype hName)).sealed

/-- A call of `regex` is sealed, whatever the quoted value, if it is so around the value. -/
theorem call_sealed {before body after : List Char} (hBefore : Sealed before)
    (hBody : QuotedBody body) (hAfter : Sealed after) :
    Sealed (quotedIn ("regex(".toList ++ before) body after) :=
  sealed_quotedIn ((sealed_of_inert (by decide)).append hBefore) hBody hAfter

theorem matchFragment_sealed (hPrefix : Inert s.datatypePrefix.display) (hVar : Inert x)
    {value : Json} (hDatatype : Inert datatype.display)
    (h : s.matchFragment x value datatype = .ok e) : Sealed e.toList := by
  obtain ⟨isText, -, h⟩ := bind_eq_ok_iff.mp h
  -- texts are matched by a call, other values by a comparison with a typed literal
  cases isText with
  | true =>
    cases h
    rw [toList_startText]
    exact call_sealed (hVar.sealed.append (sealed_of_inert (by decide)))
      (.plain (by decide) (quotedBody_escapeText value)) (sealed_of_inert (by decide))
  | false =>
    obtain ⟨literal, hLiteral, h⟩ := bind_eq_ok_iff.mp h
    cases h
    rw [String.toList_append]
    exact (hVar.append (by decide)).sealed.append (typedLiteral_sealed hPrefix hDatatype hLiteral)

/-- An expression of inert names and a value, which may be anything, is sealed. -/
theorem expression_sealed {kind : FilterKind} (hPrefix : Inert s.datatypePrefix.display)
    (hVar : Inert x) (hComparison : Inert c.comparison) (hDatatype : Inert datatype.display)
    (h : s.expression kind c x datatype = .ok (some e)) : Sealed e.toList := by
  -- the quoted value is sealed by its own quotes, everything around it has neither quote nor brace
  cases kind with
  | contain =>
    cases h
    have hFlags : ", \"i\"".toList ++ [')'] = quotedIn ", ".toList ['i'] ")".toList := by
      simp [quotedIn]
    rw [toList_containText, hFlags]
    refine call_sealed ?_ (quotedBody_escapeText c.value) ?_
    · exact ((sealed_of_inert (by decide)).append hVar.sealed).append
        (sealed_of_inert (by decide))
    · exact sealed_quotedIn (sealed_of_inert (by decide)) (.plain (by decide) .nil)
        (sealed_of_inert (by decide))
  | bound =>
    cases h
    refine Inert.sealed ?_
    refine Inert.append (Inert.append (Inert.append ?_ (by decide)) hVar) (by decide)
    split <;> decide
  | startMatch =>
    obtain ⟨e, hMatch, h⟩ := map_eq_ok_iff.mp h
    cases h
    exact matchFragment_sealed hPrefix hVar hDatatype hMatch
  | regexMatch =>
    cases h
    rw [toList_regexText]
    exact call_sealed (hVar.sealed.append (sealed_of_inert (by decide)))
      (quotedBody_escapeText c.value) (sealed_of_inert (by decide))
  | range =>
    obtain ⟨literal, hLiteral, h⟩ := bind_eq_ok_iff.mp h
    cases h
    rw [String.toList_append]
    refine Sealed.append (Inert.sealed ?_) (typedLiteral_sealed hPrefix hDatatype hLiteral)
    exact ((hVar.append (by decide)).append (inert_comparisonSymbol hComparison)).append (by decide)
  | nearby | within | aggregateFunction | temporalFunction | unsupported => cases h

end

-- ---------------------------------------------------------------------------
-- Bounds
-- ---------------------------------------------------------------------------

theorem pairBounds_sealed {lowers uppers : List Bound} {parts : List String}
    (hLowers : ∀ b ∈ lowers, Sealed b.fragment.toList)
    (hUppers : ∀ b ∈ uppers, Sealed b.fragment.toList)
    (h : pairBounds lowers uppers = .ok parts) : ∀ p ∈ parts, Sealed p.toList := by
  -- induction along the pairing: what is left of one list, of the other, or a pair
  induction lowers, uppers using pairBounds.induct generalizing parts with
  | case1 uppers =>
    cases h
    exact List.forall_mem_map.mpr hUppers
  | case2 lowers =>
    rw [pairBounds] at h
    · cases h
      exact List.forall_mem_map.mpr hLowers
    · assumption
  | case3 lower lowers upper uppers ih =>
    obtain ⟨above, -, h⟩ := bind_eq_ok_iff.mp h
    obtain ⟨others, hOthers, h⟩ := bind_eq_ok_iff.mp h
    cases h
    obtain ⟨hLower, hLowers⟩ := List.forall_mem_cons.mp hLowers
    obtain ⟨hUpper, hUppers⟩ := List.forall_mem_cons.mp hUppers
    refine List.forall_mem_cons.mpr ⟨?_, ih hLowers hUppers hOthers⟩
    have hOpen : Sealed "(".toList := sealed_of_inert (by decide)
    have hSpace : Sealed " ".toList := sealed_of_inert (by decide)
    have hClose : Sealed ")".toList := sealed_of_inert (by decide)
    have hJoiner : Inert (if above then "&&" else "||") := by
      split <;> decide
    simp only [String.toList_append]
    exact (((((hOpen.append hLower).append hSpace).append hJoiner.sealed).append hSpace).append
      hUpper).append hClose

/-- What some bounds are merged to is sealed if each of them is. -/
theorem mergedExpression_sealed {bounds : List Bound} {e : String}
    (hBounds : ∀ b ∈ bounds, Sealed b.fragment.toList)
    (h : mergedExpression bounds = .ok (some e)) : Sealed e.toList := by
  obtain ⟨parts, hParts, h⟩ := bind_eq_ok_iff.mp h
  have hSealed := pairBounds_sealed (fun b hb => hBounds b (List.mem_filter.mp hb).1)
    (fun b hb => hBounds b (List.mem_filter.mp hb).1) hParts
  split at h
  · cases h
  · cases h
    refine intercalate_induction (P := fun t => Sealed t.toList) .nil (fun s t hs ht => ?_)
      (sealed_of_inert (by decide)) hSealed
    rw [String.toList_append]
    exact hs.append ht

end SparqlSelect
