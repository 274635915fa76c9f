import SparqlSelect.Request.Reader

/-!
# Members of objects

What a reader finds in an object is looked up by name, and an object that does not count as given
has no members. An object without one of its members is a field: whatever value it is filled with,
the other members are the same.

* `Json.atPath` — what stands at the end of a path of names.
* `Json.Field`, `Json.Frame` — an object without a member, a list or an object without an entry.
* `Json.eq_obj_of_orElseEmpty` — an object that may stand for one that is not given.
* `Json.eq_of_same` — values that are compared by evaluation.
-/

namespace SparqlSelect

namespace Json

/-- An object without its member of a name. -/
structure Field (name : String) where
  before : List (String × Json)
  after : List (String × Json)
  isFirst : ∀ m ∈ before, m.1 ≠ name

/-- The members of the object with a value for the one left out. -/
def Field.members {name : String} (f : Field name) (value : Json) : List (String × Json) :=
  f.before ++ (name, value) :: f.after

/-- The object with a value for the member left out. -/
def Field.fill {name : String} (f : Field name) (value : Json) : Json := .obj (f.members value)

/-- A list without an item, or an object without a member of any name. -/
inductive Frame where
  | item (before after : List Json)
  | member (before : List (String × Json)) (name : String) (after : List (String × Json))

/-- The list or the object with a value for what was left out. -/
def Frame.fill : Frame → Json → Json
  | .item before after, value => .arr (before ++ value :: after)
  | .member before name after, value => .obj (before ++ (name, value) :: after)

/-- Where what was left out stands among the other entries. -/
def Frame.index : Frame → Nat
  | .item before _ => before.length
  | .member before _ _ => before.length

/-- What stands in a value at the end of a path of member names, `null` if there is nothing. -/
def atPath (value : Json) : List String → Json
  | [] => value
  | name :: rest =>
    match value with
    | .obj members => (member name members).atPath rest
    | _ => .null

namespace Field

variable {name : String} (f : Field name) (v v' : Json)

/-- The member that a frame leaves open is what it is filled with. -/
theorem member_self : Json.member name (f.members v) = v := by
  obtain ⟨before, after, hFirst⟩ := f
  simp only [Field.members, Json.member]
  induction before with
  | nil => simp
  | cons m before ih =>
    obtain ⟨other, value⟩ := m
    rw [List.forall_mem_cons] at hFirst
    have hOther : (name == other) = false := beq_eq_false_iff_ne.mpr (Ne.symm hFirst.1)
    rw [List.cons_append, List.lookup_cons, hOther]
    exact ih hFirst.2

/-- No other member depends on what a frame is filled with. -/
theorem member_other (other : String) (h : other ≠ name) :
    Json.member other (f.members v') = Json.member other (f.members v) := by
  obtain ⟨before, after, hFirst⟩ := f
  have hOther : (other == name) = false := beq_eq_false_iff_ne.mpr h
  simp only [Field.members, Json.member]
  clear hFirst
  induction before with
  | nil => simp [List.lookup_cons, hOther]
  | cons m before ih =>
    obtain ⟨next, value⟩ := m
    simp only [List.cons_append, List.lookup_cons]
    split
    · rfl
    · exact ih

/-- A filled frame has a member, so it counts as given. -/
theorem isSet_fill : (f.fill v).isSet = true := by simp [fill, members, isSet]

/-- An object with a member counts as given. -/
theorem orElseEmpty_fill (empty : Json) : orElseEmpty (f.fill v) empty = f.fill v :=
  if_pos (f.isSet_fill v)

/-- A filled frame has the members that it was made of. -/
theorem toMembers_fill : (f.fill v).toMembers = .ok (f.members v) := rfl

end Field

/-- A filled frame has a member, so it counts as given. -/
theorem Frame.isSet_fill (f : Frame) (v : Json) : (f.fill v).isSet = true := by
  cases f <;> simp [fill, isSet]

-- ---------------------------------------------------------------------------
-- Members that are looked up
-- ---------------------------------------------------------------------------

/-- Only an object has members. -/
theorem toMembers_eq_ok_iff {value : Json} {members : List (String × Json)} :
    value.toMembers = .ok members ↔ value = .obj members := by
  cases value <;> simp [toMembers]

/-- Asking an object for a member finds it, or null if there is none. -/
theorem get_obj (members : List (String × Json)) (name : String) :
    (Json.obj members).get name = .ok (member name members) := rfl

/-- The members of an object that may be missing are those of the object, or there are none. -/
theorem eq_obj_of_orElseEmpty {value : Json} {members : List (String × Json)}
    (h : (orElseEmpty value (.obj [])).toMembers = .ok members) :
    value = .obj members ∨ members = [] ∧ ∀ own, value ≠ .obj own := by
  unfold orElseEmpty at h
  split at h
  · exact .inl (toMembers_eq_ok_iff.mp h)
  · -- an object that does not count as given is empty
    rename_i hUnset
    cases h
    cases value with
    | obj own =>
      have hNil : own = [] := by simpa [isSet] using hUnset
      exact .inl (by rw [hNil])
    | _ => exact .inr ⟨rfl, fun own hObject => by cases hObject⟩

/-- A member of a value that is an object, or that stands for an empty one, is what is at its name.
-/
theorem atPath_of_orElseEmpty {value : Json} {members : List (String × Json)}
    (h : (orElseEmpty value (.obj [])).toMembers = .ok members) (name : String) :
    value.atPath [name] = member name members := by
  rcases eq_obj_of_orElseEmpty h with rfl | ⟨rfl, hNone⟩
  · rfl
  · cases value with
    | obj own => exact absurd rfl (hNone own)
    | _ => rfl

/-- A value that counts as given has items, if it is gone through one by one. -/
theorem ne_nil_of_toItems {value : Json} {items : List Json} (hGiven : value.isSet = true)
    (h : value.toItems = .ok items) : items ≠ [] := by
  cases value with
  | arr own =>
    cases h
    simpa [isSet] using hGiven
  | str text =>
    cases h
    simpa [isSet] using hGiven
  | obj own =>
    cases h
    simpa [isSet] using hGiven
  | _ => cases h

-- ---------------------------------------------------------------------------
-- Values that are the same
-- ---------------------------------------------------------------------------

mutual

/-- Values that are the same are equal. -/
theorem eq_of_same : ∀ {a b : Json}, same a b = true → a = b
  | .null, b, h => by cases b <;> simp_all [same]
  | .bool x, b, h => by cases b <;> simp_all [same]
  | .int x, b, h => by cases b <;> simp_all [same]
  | .float x, b, h => by cases b <;> simp_all [same]
  | .str x, b, h => by cases b <;> simp_all [same]
  | .arr as, b, h => by
    cases b with
    | arr bs => exact congrArg Json.arr (eq_of_sameItems (by simpa only [same] using h))
    | _ => simp [same] at h
  | .obj as, b, h => by
    cases b with
    | obj bs => exact congrArg Json.obj (eq_of_sameMembers (by simpa only [same] using h))
    | _ => simp [same] at h

theorem eq_of_sameItems : ∀ {as bs : List Json}, sameItems as bs = true → as = bs
  | [], bs, h => by cases bs <;> simp_all [sameItems]
  | a :: as, bs, h => by
    cases bs with
    | nil => simp [sameItems] at h
    | cons b bs =>
      rw [sameItems, Bool.and_eq_true] at h
      rw [eq_of_same h.1, eq_of_sameItems h.2]

theorem eq_of_sameMembers : ∀ {as bs : List (String × Json)}, sameMembers as bs = true → as = bs
  | [], bs, h => by cases bs <;> simp_all [sameMembers]
  | (m, a) :: as, bs, h => by
    cases bs with
    | nil => simp [sameMembers] at h
    | cons entry bs =>
      obtain ⟨n, b⟩ := entry
      rw [sameMembers, Bool.and_eq_true, Bool.and_eq_true, beq_iff_eq] at h
      rw [h.1.1, eq_of_same h.1.2, eq_of_sameMembers h.2]

end

end Json

end SparqlSelect
