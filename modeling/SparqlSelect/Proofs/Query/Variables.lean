import SparqlSelect.Proofs.Compile.Drafts
import SparqlSelect.Proofs.Fragment.Mentions
import SparqlSelect.Proofs.Query.Scope

/-!
# The variables of a pattern

The variables of a pattern are found by looking through the texts of its terms, at whatever depth
they stand. So besides the variables that the pattern declares there are those that stand in a
literal or in an IRI, where they are only characters. Nothing else is found: a name, a path and a
number have no variables in them, and the variable of a binding is a variable.

* `Group.Encloses` — a variable is read inside of a term of the pattern.
* `Triple.mentions_iff` — the variables that a triple mentions.
* `Group.mem_variables_iff` — the variables of a pattern.
-/

namespace SparqlSelect

/-- A variable is read between the quotes or the angle brackets of a term. -/
def Element.Encloses (x : String) : Element → Prop
  | .triple t => ∃ v ∈ t.slots, EnclosedIn x.toList v.toList
  | .filter _ | .bind _ | .optional _ | .union _ | .nested _ => False

/-- A variable is read inside of a term, in a group or inside it. -/
def Group.Encloses (x : String) (g : Group) : Prop :=
  ∃ h ∈ g.all, ∃ e ∈ h.elements, e.Encloses x

/-- The fragments of the triples and bindings of a pattern have been checked, at whatever depth. -/
def Group.IsChecked (g : Group) : Prop :=
  ∀ h ∈ g.all, (∀ t ∈ h.triples, t.Fits) ∧ ∀ b ∈ h.binds, b.Fits

section

variable {t : Triple} {g h : Group} {x : String}

/-- A triple mentions the variables that its terms are and those that they enclose. -/
theorem Triple.mentions_iff (h : t.Fits) : x ∈ t.variables ↔
    Kind.acceptsAny [.var] x = true ∧
      (x ∈ t.slots ∨ ∃ v ∈ t.slots, EnclosedIn x.toList v.toList) := by
  -- a slot mentions itself if it is a variable, or what stands between its quotes or brackets
  have hSlots : ∀ v ∈ t.slots, (x ∈ variablesIn v ↔
      Kind.acceptsAny [.var] x = true ∧ (x = v ∨ EnclosedIn x.toList v.toList)) := by
    simp only [slots, List.forall_mem_cons]
    exact ⟨mem_variablesIn_iff (.inl h.subject), mem_variablesIn_iff (.inr (.inl h.predicate)),
      mem_variablesIn_iff (.inr (.inr h.object)), by simp⟩
  have hMem : x ∈ t.variables ↔ ∃ v ∈ t.slots, x ∈ variablesIn v := by
    simp [Triple.variables, slots]
  rw [hMem]
  constructor
  · rintro ⟨v, hv, hx⟩
    obtain ⟨hVar, rfl | hEnclosed⟩ := (hSlots v hv).mp hx
    · exact ⟨hVar, .inl hv⟩
    · exact ⟨hVar, .inr ⟨v, hv, hEnclosed⟩⟩
  · rintro ⟨hVar, hv | ⟨v, hv, hEnclosed⟩⟩
    · exact ⟨x, hv, (hSlots x hv).mpr ⟨hVar, .inl rfl⟩⟩
    · exact ⟨v, hv, (hSlots v hv).mpr ⟨hVar, .inr hEnclosed⟩⟩

/-- What a group mentions itself, one element at a time. -/
theorem Group.mem_ownVariables_iff (hTriples : ∀ t ∈ h.triples, t.Fits)
    (hBinds : ∀ b ∈ h.binds, b.Fits) :
    x ∈ h.triples.flatMap Triple.variables ++ h.binds.map (·.var) ↔
      Kind.acceptsAny [.var] x = true ∧ ∃ e ∈ h.elements, e.Declares x ∨ e.Encloses x := by
  rw [List.mem_append, List.mem_flatMap, List.mem_map]
  constructor
  · rintro (⟨t, ht, hx⟩ | ⟨b, hb, rfl⟩)
    · obtain ⟨hVar, hSlots⟩ := (Triple.mentions_iff (hTriples t ht)).mp hx
      exact ⟨hVar, .triple t, mem_triples_iff.mp ht, hSlots⟩
    · exact ⟨(hBinds b hb).var, .bind b, mem_binds_iff.mp hb, .inl rfl⟩
  · rintro ⟨hVar, e, he, hx⟩
    -- only triples and bindings declare or enclose a variable
    cases e with
    | triple t =>
      have ht := mem_triples_iff.mpr he
      exact .inl ⟨t, ht, (Triple.mentions_iff (hTriples t ht)).mpr ⟨hVar, hx⟩⟩
    | bind b =>
      rcases hx with rfl | hNone
      · exact .inr ⟨b, mem_binds_iff.mpr he, rfl⟩
      · exact hNone.elim
    | filter _ | optional _ | union _ | nested _ => exact (or_self_iff.mp hx).elim

/-- What is enclosed in a term is a variable. -/
theorem Group.var_of_encloses (h : g.Encloses x) : Kind.acceptsAny [.var] x = true := by
  obtain ⟨k, -, e, -, he⟩ := h
  cases e with
  | triple t =>
    obtain ⟨v, -, a, w, b, -, -, hx⟩ := he
    exact Kind.acceptsAny_var_iff.mpr (matches_of_mem_variablesFrom hx)
  | filter _ | bind _ | optional _ | union _ | nested _ => exact he.elim

end

/-- **The variables of a pattern whose terms have been checked** are the variables that it declares
and those that stand between quotes or angle brackets in one of its terms. So they are what the
pattern declares exactly if it declares all that its terms enclose. -/
theorem Group.mem_variables_iff {g : Group} (hChecked : g.IsChecked) :
    (∀ x, x ∈ g.variables ↔
      Kind.acceptsAny [.var] x = true ∧ (g.Declares x ∨ g.Encloses x)) ∧
    ((∀ x, x ∈ g.variables ↔ Kind.acceptsAny [.var] x = true ∧ g.Declares x) ↔
      ∀ x, g.Encloses x → g.Declares x) := by
  have hAll (x : String) : x ∈ g.variables ↔
      Kind.acceptsAny [.var] x = true ∧ (g.Declares x ∨ g.Encloses x) := by
    -- membership in the list of all groups' variables, group by group
    rw [Group.variables, List.mem_flatMap]
    constructor
    · rintro ⟨k, hk, hx⟩
      obtain ⟨hVar, e, he, hx⟩ :=
        (Group.mem_ownVariables_iff (hChecked k hk).1 (hChecked k hk).2).mp hx
      exact ⟨hVar, hx.imp (fun h => ⟨k, hk, e, he, h⟩) fun h => ⟨k, hk, e, he, h⟩⟩
    · rintro ⟨hVar, ⟨k, hk, e, he, hx⟩ | ⟨k, hk, e, he, hx⟩⟩
      · exact ⟨k, hk, (Group.mem_ownVariables_iff (hChecked k hk).1 (hChecked k hk).2).mpr
          ⟨hVar, e, he, .inl hx⟩⟩
      · exact ⟨k, hk, (Group.mem_ownVariables_iff (hChecked k hk).1 (hChecked k hk).2).mpr
          ⟨hVar, e, he, .inr hx⟩⟩
  refine ⟨hAll, fun h x hx => ?_, fun h x => ?_⟩
  · have hVar := Group.var_of_encloses hx
    exact ((h x).mp ((hAll x).mpr ⟨hVar, .inr hx⟩)).2
  · rw [hAll x, or_iff_left_of_imp (h x)]

/-- A triple whose object is an IRI with a query. -/
def queriedTriple : Triple := ⟨"?s", "x:page", "<http://x.org/?page>"⟩

theorem queriedTriple_fits : queriedTriple.Fits :=
  ⟨by decide +kernel, by decide +kernel, by decide +kernel⟩

/-- That triple in an optional part, beside a binding. -/
def queriedGroup : Group :=
  ⟨none, [.optional ⟨none, [.triple queriedTriple]⟩, .bind ⟨"str(?s)", "?name"⟩]⟩

theorem mem_variables_queried : queriedGroup.IsChecked ∧
    ("?page" ∈ queriedGroup.variables ↔ Kind.acceptsAny [.var] "?page" = true ∧
      (queriedGroup.Declares "?page" ∨ queriedGroup.Encloses "?page")) := by
  have hBinding : Binding.Fits ⟨"str(?s)", "?name"⟩ := ⟨by decide +kernel, by decide +kernel⟩
  have hChecked : queriedGroup.IsChecked := by
    simp [queriedGroup, Group.IsChecked, Group.all, Element.groupsOfAll, Element.groups,
      Group.triples, Group.binds, queriedTriple_fits, hBinding]
  exact ⟨hChecked, (Group.mem_variables_iff hChecked).1 "?page"⟩

/-- A pattern that has been checked and mentions a variable that is no term and no alias in it. -/
theorem mentions_undeclared :
    Group.IsChecked ⟨none, [.triple queriedTriple]⟩ ∧
    "?page" ∈ Group.variables ⟨none, [.triple queriedTriple]⟩ ∧
    ¬ Group.Declares "?page" ⟨none, [.triple queriedTriple]⟩ := by
  refine ⟨?_, by decide +kernel, ?_⟩
  · simp [Group.IsChecked, Group.all, Element.groupsOfAll, Element.groups, Group.triples,
      Group.binds, queriedTriple_fits]
  · simp [Group.Declares, Group.all, Element.groupsOfAll, Element.groups, Element.Declares,
      Triple.slots, queriedTriple]

end SparqlSelect
