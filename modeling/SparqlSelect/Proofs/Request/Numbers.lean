import SparqlSelect.Proofs.Request.Modifiers
import SparqlSelect.Proofs.Request.Place

/-!
# Numbers in a request

A request may hold a number at three kinds of places: its own limit, the limit of an observable that
is enabled, and the radius of a clause. A reader goes down to such a place in the same way whatever
stands there. So if the request is read with one value at the place, then with any other value it is
read too, unless that value itself is refused, and what is read differs in the amount alone.

* `Expected.read_outcome` — what may come of reading one value.
* `NumberPlace` — a request without a number.
* `ReadsInto` — a reader that succeeds for all values of a place for which the value is read, with
  rules for sequences and lists.
* `NumberPlace.readRequest_into` — the request is read so.
-/

namespace SparqlSelect

open Json

-- ---------------------------------------------------------------------------
-- One value
-- ---------------------------------------------------------------------------

namespace Expected

/-- What is kept of a value that is as expected. -/
abbrev Amount : Expected → Type
  | count => Int
  | number => Binary64

/-- Reads a value where a count or a number is expected. -/
def read : (e : Expected) → Json → String → Except Failure (Option e.Amount)
  | count, value, path => readLimit value path
  | number, value, path => readMeasure value path

/-- Whether a value has no amount that could be kept: a count is finite, and an integer beyond the
largest double is no number. -/
def overflows : Expected → Json → Bool
  | count, .float (.infinite _) => true
  | number, .int n => (Binary64.ofInt? n).isNone
  | _, _ => false

/-- That an amount is the one of a value. A count is not negative, and a truth value is no number,
although it has a double. -/
def Gives : (e : Expected) → Json → e.Amount → Prop
  | count, value, (n : Int) => value.toInteger = .ok n ∧ 0 ≤ n
  | number, value, x => value.toDouble = .ok x ∧ ∀ b, value ≠ .bool b

/-- What may come of reading a value. -/
inductive Outcome (e : Expected) (value : Json) (path : String) :
    Except Failure (Option e.Amount) → Prop
  /-- The value has no amount, and no check has foreseen it. -/
  | overflow : e.overflows value = true → Outcome e value path (.error (.fault .tooLarge))
  /-- The value counts as absent. -/
  | absent : e.overflows value = false → value.isMissing = true → Outcome e value path (.ok none)
  /-- The value is accepted. -/
  | accepted {a : e.Amount} : e.overflows value = false → value.isMissing = false →
      e.Gives value a → Outcome e value path (.ok (some a))
  /-- The value has no amount that is expected, and is reported with its path. -/
  | refused : e.overflows value = false → value.isMissing = false → (∀ a, ¬ e.Gives value a) →
      Outcome e value path (.error (.invalidField path value e))

/-- A value is too large for an integer exactly if it overflows as a limit. -/
theorem toInteger_tooLarge_iff {value : Json} :
    value.toInteger = .error .tooLarge ↔ count.overflows value = true := by
  cases value with
  | float x => cases x <;> simp [toInteger, overflows]
  | str s =>
    simp only [toInteger, overflows]
    split <;> simp
  | _ => simp [toInteger, overflows]

/-- A value is too large for a double exactly if it overflows as a measure. -/
theorem toDouble_tooLarge_iff {value : Json} :
    value.toDouble = .error .tooLarge ↔ number.overflows value = true := by
  cases value with
  | int n => cases h : Binary64.ofInt? n <;> simp [toDouble, overflows, h]
  | str s =>
    simp only [toDouble, overflows]
    split <;> simp
  | _ => simp [toDouble, overflows]

/-- What counts as absent, null and the empty text, is not too large for anything. -/
theorem overflows_of_isMissing {e : Expected} {value : Json} (h : value.isMissing = true) :
    e.overflows value = false := by
  cases value with
  | null => cases e <;> rfl
  | str s => cases e <;> rfl
  | _ => cases h

/-- What comes of a limit, by what it was read from. -/
theorem readLimit_outcome (value : Json) (path : String) :
    Outcome count value path (readLimit value path) := by
  unfold readLimit
  -- the four ways to read a limit: none, a number, one that is too large, no number at all
  split
  · rename_i hMissing
    exact .absent (overflows_of_isMissing hMissing) hMissing
  rename_i hSome
  have hThere : value.isMissing = false := by simpa using hSome
  have hFits (h : value.toInteger ≠ .error .tooLarge) : count.overflows value = false := by
    rwa [Ne, toInteger_tooLarge_iff, Bool.not_eq_true] at h
  split
  · rename_i n hn
    have hNo : count.overflows value = false := hFits (by simp [hn])
    split
    · rename_i hNegative
      refine .refused hNo hThere ?_
      rintro m ⟨hm, hNat⟩
      obtain rfl : n = m := Except.ok.inj (hn.symm.trans hm)
      exact Int.not_le.mpr hNegative hNat
    · rename_i hNat
      exact .accepted hNo hThere ⟨hn, Int.not_lt.mp hNat⟩
  · rename_i hLarge
    exact .overflow (toInteger_tooLarge_iff.mp hLarge)
  · rename_i f hOther hf
    refine .refused (hFits fun h => hOther (Except.error.inj (hf.symm.trans h))) hThere ?_
    rintro m ⟨hm, -⟩
    cases hf.symm.trans hm

/-- What comes of a measure, by what it was read from. -/
theorem readMeasure_outcome (value : Json) (path : String) :
    Outcome number value path (readMeasure value path) := by
  -- a truth value has a double, but is no number here
  by_cases hBool : ∃ b, value = .bool b
  · obtain ⟨b, rfl⟩ := hBool
    exact .refused rfl rfl fun x hx => hx.2 b rfl
  unfold readMeasure
  split
  · rename_i hMissing
    exact .absent (overflows_of_isMissing hMissing) hMissing
  rename_i hSome
  have hThere : value.isMissing = false := by simpa using hSome
  have hFits (h : value.toDouble ≠ .error .tooLarge) : number.overflows value = false := by
    rwa [Ne, toDouble_tooLarge_iff, Bool.not_eq_true] at h
  split
  · exact absurd ⟨_, rfl⟩ hBool
  rw [if_neg Bool.false_ne_true]
  split
  · rename_i x hx
    exact .accepted (hFits (by simp [hx])) hThere ⟨hx, fun b hb => hBool ⟨b, hb⟩⟩
  · rename_i hLarge
    exact .overflow (toDouble_tooLarge_iff.mp hLarge)
  · rename_i f hOther hf
    refine .refused (hFits fun h => hOther (Except.error.inj (hf.symm.trans h))) hThere ?_
    rintro x ⟨hx, -⟩
    cases hf.symm.trans hx

/-- A value is too large, absent, accepted or reported. -/
theorem read_outcome (e : Expected) (value : Json) (path : String) :
    e.Outcome value path (e.read value path) := by
  cases e with
  | count => exact readLimit_outcome value path
  | number => exact readMeasure_outcome value path

/-- A number that is read is no absent value. -/
theorem read_number {e : Expected} {value : Json} {path : String} {found : Option e.Amount}
    (hNumber : value.isNumber = true) (h : e.read value path = .ok found) :
    ∃ a, found = some a := by
  have hThere : value.isMissing = false := by
    cases value <;> first | rfl | cases hNumber
  have hOutcome := e.read_outcome value path
  rw [h] at hOutcome
  cases hOutcome with
  | absent _ hMissing => exact absurd hMissing (by simp [hThere])
  | @accepted a _ _ _ => exact ⟨a, rfl⟩

end Expected

-- ---------------------------------------------------------------------------
-- Readers of something with a place in it
-- ---------------------------------------------------------------------------

/-- A reader of something with a place in it. If it succeeds for some value at the place, then for
any value it gives what is read of that value, put where `get` finds it; a failure is that of the
value. Results for two values are related if something is there in the first. -/
def ReadsInto {α μ : Type} (get : α → Option μ) (R : α → α → Prop)
    (readValue : Json → Except Failure (Option μ)) (read : Json → Except Failure α) : Prop :=
  ∀ w a, read w = .ok a → ∃ put : Option μ → α, (∀ u, get (put u) = u) ∧
    (∀ u u', R (put (some u)) (put u')) ∧ ∀ v, read v = (readValue v).map put

namespace ReadsInto

variable {α β γ μ : Type} {get : α → Option μ} {R : α → α → Prop}
  {readValue : Json → Except Failure (Option μ)} {read : Json → Except Failure α}

/-- The value itself. -/
theorem value (readValue : Json → Except Failure (Option μ)) :
    ReadsInto (fun u => u) (fun u u' => u = none → u' = none) readValue readValue := by
  refine fun _ _ _ => ⟨fun u => u, fun _ => rfl, nofun, fun v => ?_⟩
  cases readValue v <;> rfl

/-- Another view of what holds the place. -/
theorem map {get' : β → Option μ} {R' : β → β → Prop} (h : ReadsInto get R readValue read)
    (g : α → β) (hGet : ∀ a, get' (g a) = get a) (hR : ∀ a b, R a b → R' (g a) (g b)) :
    ReadsInto get' R' readValue fun v => (read v).map g := by
  intro w b hb
  obtain ⟨a, ha, -⟩ := map_eq_ok_iff.mp hb
  obtain ⟨put, hPut, hRelated, hRead⟩ := h w a ha
  refine ⟨fun u => g (put u), fun u => (hGet _).trans (hPut u), fun u u' => hR _ _ (hRelated u u'),
    fun v => ?_⟩
  change (read v).map g = _
  rw [hRead]
  cases readValue v <;> rfl

/-- Something is made of what holds the place. -/
theorem bind_ok {get' : β → Option μ} {R' : β → β → Prop} (h : ReadsInto get R readValue read)
    (g : α → β) (hGet : ∀ a, get' (g a) = get a) (hR : ∀ a b, R a b → R' (g a) (g b)) :
    ReadsInto get' R' readValue fun v => read v >>= fun a => .ok (g a) := by
  have hMap : (fun v => read v >>= fun a => .ok (g a)) = fun v => (read v).map g := by
    funext v
    cases read v <;> rfl
  rw [hMap]
  exact h.map g hGet hR

/-- A step before the place is reached. -/
theorem same (x : Except Failure β) {read : β → Json → Except Failure α}
    (h : ∀ b, x = .ok b → ReadsInto get R readValue (read b)) :
    ReadsInto get R readValue fun v => x >>= fun b => read b v := by
  intro w a ha
  obtain ⟨b, rfl, ha⟩ := bind_eq_ok_iff.mp ha
  exact h b rfl w a ha

/-- A step after what holds the place has been read, which does not depend on that. -/
theorem past {get' : γ → Option μ} {R' : γ → γ → Prop} (x : Except Failure β)
    {f : α → β → Except Failure γ}
    (h : ∀ b, x = .ok b → ReadsInto get' R' readValue fun v => read v >>= fun a => f a b) :
    ReadsInto get' R' readValue fun v => read v >>= fun a => x >>= fun b => f a b := by
  cases x with
  | error e =>
    intro w c hc
    obtain ⟨a, -, hc⟩ := bind_eq_ok_iff.mp hc
    cases hc
  | ok b => exact h b rfl

/-- A list that is read item by item, with the place in one of them. -/
theorem mapM {ι : Type} (f : ι → Except Failure α) (item : Json → ι) (hRefl : ∀ a, R a a)
    (h : ReadsInto get R readValue fun v => f (item v)) (before after : List ι) :
    ReadsInto (fun as => as[before.length]?.bind get) (List.Forall₂ R) readValue
      fun v => (before ++ item v :: after).mapM f := by
  intro w as has
  change (before ++ item w :: after).mapM f = _ at has
  -- the list is read up to the item, then the item, then what follows it
  rw [List.mapM_append, bind_eq_ok_iff] at has
  obtain ⟨first, hFirst, has⟩ := has
  rw [bind_eq_ok_iff] at has
  obtain ⟨rest, hRest, -⟩ := has
  rw [List.mapM_cons, bind_eq_ok_iff] at hRest
  obtain ⟨a, ha, hRest⟩ := hRest
  obtain ⟨last, hLast, -⟩ := bind_eq_ok_iff.mp hRest
  have hLength : before.length = first.length := (mapM_eq_ok_iff.mp hFirst).length_eq
  obtain ⟨put, hPut, hRelated, hRead⟩ := h w a ha
  refine ⟨fun u => first ++ put u :: last, fun u => ?_,
    fun u u' => forall₂_hole hRefl (hRelated u u'), fun v => ?_⟩
  · simp [hLength, hPut]
  · change (before ++ item v :: after).mapM f = _
    rw [List.mapM_append, List.mapM_cons, hFirst, hLast, show f (item v) = _ from hRead v]
    cases readValue v <;> rfl

/-- A list whose items are read with their paths, with the place in one of them. -/
theorem readItems {read : Json → String → Except Failure α} {item : Json → Json}
    {readValue : Json → String → Except Failure (Option μ)} (hRefl : ∀ a, R a a)
    (h : ∀ path, ReadsInto get R (readValue · path) fun v => read (item v) path)
    (before after : List Json) (path : String) :
    ReadsInto (fun as => as[before.length]?.bind get) (List.Forall₂ R)
      (readValue · (itemPath path before.length))
      fun v => SparqlSelect.readItems read path (before ++ item v :: after) := by
  have hIndexed (v : Json) : (before ++ item v :: after).zipIdx =
      before.zipIdx ++ (item v, before.length) :: after.zipIdx (before.length + 1) := by
    rw [List.zipIdx_append, List.zipIdx_cons, Nat.zero_add]
  have hMap := mapM (fun entry : Json × Nat => read entry.1 (itemPath path entry.2))
    (fun v => (item v, before.length)) hRefl (h (itemPath path before.length))
    before.zipIdx (after.zipIdx (before.length + 1))
  rw [List.length_zipIdx] at hMap
  unfold SparqlSelect.readItems
  simpa only [hIndexed] using hMap

end ReadsInto

-- ---------------------------------------------------------------------------
-- Requests that differ in amounts
-- ---------------------------------------------------------------------------

/-- The same clause with another radius or without one; no radius is added. -/
structure Clause.Adjusted (c c' : Clause) : Prop where
  same : c' = { c with radius := c'.radius }
  radius : c.radius = none → c'.radius = none

/-- The same spec with adjusted clauses. -/
structure FilterSpec.Adjusted (spec spec' : FilterSpec) : Prop where
  same : spec' = { spec with clauses := spec'.clauses }
  clauses : List.Forall₂ Clause.Adjusted spec.clauses spec'.clauses

/-- The same observable, with another limit. -/
def Observable.Adjusted (o o' : Observable) : Prop := o' = { o with limit := o'.limit }

/-- The same key with adjusted specs. -/
def EntryAdjusted (entry entry' : String × List FilterSpec) : Prop :=
  entry.1 = entry'.1 ∧ List.Forall₂ FilterSpec.Adjusted entry.2 entry'.2

/-- The same request, with other limits and other radii. -/
structure Request.Adjusted (r r' : Request) : Prop where
  same : r' = { r with observables := r'.observables, filters := r'.filters, limit := r'.limit }
  observables : List.Forall₂ Observable.Adjusted r.observables r'.observables
  filters : List.Forall₂ EntryAdjusted r.filters r'.filters

/-- A clause with its own radius is adjusted. -/
theorem Clause.Adjusted.refl (c : Clause) : c.Adjusted c := ⟨rfl, id⟩

/-- An observable with its own limit is adjusted. -/
theorem Observable.Adjusted.refl (o : Observable) : o.Adjusted o := rfl

/-- A spec with its own radii is adjusted. -/
theorem FilterSpec.Adjusted.refl (spec : FilterSpec) : spec.Adjusted spec :=
  ⟨rfl, List.forall₂_same.mpr fun c _ => .refl c⟩

/-- An entry with its own radii is adjusted. -/
theorem EntryAdjusted.refl (entry : String × List FilterSpec) : EntryAdjusted entry entry :=
  ⟨rfl, List.forall₂_same.mpr fun spec _ => .refl spec⟩

namespace Request.Adjusted

variable (r : Request)

/-- A request with another limit is adjusted. -/
theorem of_limit (limit : Option Int) : r.Adjusted { r with limit } where
  same := rfl
  observables := List.forall₂_same.mpr fun o _ => .refl o
  filters := List.forall₂_same.mpr fun entry _ => .refl entry

/-- A request whose observables have other limits is adjusted. -/
theorem of_observables {observables : List Observable}
    (h : List.Forall₂ Observable.Adjusted r.observables observables) :
    r.Adjusted { r with observables } where
  same := rfl
  observables := h
  filters := List.forall₂_same.mpr fun entry _ => .refl entry

/-- A request whose clauses have other radii is adjusted. -/
theorem of_filters {filters : List (String × List FilterSpec)}
    (h : List.Forall₂ EntryAdjusted r.filters filters) : r.Adjusted { r with filters } where
  same := rfl
  observables := List.forall₂_same.mpr fun o _ => .refl o
  filters := h

end Request.Adjusted

-- ---------------------------------------------------------------------------
-- Places
-- ---------------------------------------------------------------------------

/-- The path of an entry: by its place in a list, by its name in an object. -/
def Json.Frame.path (path : String) : Frame → String
  | .item before _ => itemPath path before.length
  | .member _ name _ => path ++ "[" ++ quoted name ++ "]"

/-- A request without the limit of one observable, which is enabled. -/
structure LimitPlace where
  request : Field "observables"
  before : List Json
  after : List Json
  observable : Field "modifiers"
  modifiers : Field "limit"
  limit : Field "value"
  enabled : (Json.member "enabled" (limit.members .null)).isSet = true

/-- The observable with a limit. -/
def LimitPlace.itemWith (p : LimitPlace) (value : Json) : Json :=
  p.observable.fill (p.modifiers.fill (p.limit.fill value))

/-- A request without the radius of one clause. -/
structure RadiusPlace extends SpecPlace where
  clauses : Frame
  clause : Field "input"
  input : Field "radius"

namespace RadiusPlace

/-- The clause with a radius. -/
def clauseWith (p : RadiusPlace) (value : Json) : Json := p.clause.fill (p.input.fill value)

/-- The specs of the key with a radius. -/
def entryWith (p : RadiusPlace) (value : Json) : Json :=
  p.specs.fill (p.specWith (p.clauses.fill (p.clauseWith value)))

/-- The path of the clause. -/
def clausePath (p : RadiusPlace) : String :=
  itemPath (p.specs.path ("filters[" ++ quoted p.key ++ "]") ++ ".filters") p.clauses.index

/-- The radius of the clause in a request that was read. -/
def radiusIn (p : RadiusPlace) (r : Request) : Option Binary64 :=
  r.filters[p.entries.before.length]?.bind fun entry =>
    entry.2[p.specs.index]?.bind fun spec => spec.clauses[p.clauses.index]?.bind Clause.radius

end RadiusPlace

/-- A request without a number, by what is expected of the number. -/
inductive NumberPlace : Expected → Type
  /-- The limit of the request. -/
  | limit (request : Field "limit") : NumberPlace .count
  /-- The limit of an observable. -/
  | ownLimit (place : LimitPlace) : NumberPlace .count
  /-- The radius of a clause. -/
  | radius (place : RadiusPlace) : NumberPlace .number

namespace NumberPlace

/-- The request with a value at the place. -/
def requestWith {e : Expected} : NumberPlace e → Json → Json
  | limit request, value => request.fill value
  | ownLimit p, value => p.request.fill (.arr (p.before ++ p.itemWith value :: p.after))
  | radius p, value => p.request.fill (p.entries.fill (p.entryWith value))

/-- The path of the place. -/
def path {e : Expected} : NumberPlace e → String
  | limit _ => "limit"
  | ownLimit p => itemPath "observables" p.before.length ++ ".modifiers.limit.value"
  | radius p => p.clausePath ++ ".input.radius"

/-- The amount that a request that was read has at the place. -/
def amountIn : {e : Expected} → NumberPlace e → Request → Option e.Amount
  | _, limit _, r => r.limit
  | _, ownLimit p, r => r.observables[p.before.length]?.bind Observable.limit
  | _, radius p, r => p.radiusIn r

end NumberPlace

-- ---------------------------------------------------------------------------
-- Reading with a place
-- ---------------------------------------------------------------------------

namespace RadiusPlace

/-- The radius of a clause is read where it stands, and nothing else of the clause depends on it. -/
theorem readClause_into (p : RadiusPlace) (path : String) :
    ReadsInto Clause.radius Clause.Adjusted (readMeasure · (path ++ ".input.radius"))
      fun v => Clause.read (p.clauseWith v) path := by
  have hSelected (v : Json) := p.clause.member_other (p.input.fill .null) (p.input.fill v)
    "selectedFilter" (by decide)
  have hOperator (v : Json) := p.clause.member_other (p.input.fill .null) (p.input.fill v)
    "operator" (by decide)
  have hOther (v : Json) (name : String) (h : name ≠ "radius") :=
    p.input.member_other .null v name h
  change ReadsInto _ _ _ fun v => Clause.read (.obj (p.clause.members (p.input.fill v))) path
  simp only [Clause.read, hSelected, hOperator, Field.member_self, Field.orElseEmpty_fill,
    Field.toMembers_fill, raise_ok_bind, hOther _ "latLngs" (by decide),
    hOther _ "value" (by decide), hOther _ "expression" (by decide),
    hOther _ "center" (by decide)]
  refine .same _ fun name _ => .past _ fun points _ => ?_
  exact (ReadsInto.value _).bind_ok _ (fun _ => rfl) fun _ _ h => ⟨rfl, h⟩

/-- Nothing of a spec but the radius of that clause depends on it. -/
theorem readSpec_into (p : RadiusPlace) (uri : Json) (path : String) :
    ReadsInto (fun spec : FilterSpec => spec.clauses[p.clauses.index]?.bind Clause.radius)
      FilterSpec.Adjusted
      (readMeasure · (itemPath (path ++ ".filters") p.clauses.index ++ ".input.radius"))
      fun v => FilterSpec.read uri (p.specWith (p.clauses.fill (p.clauseWith v))) path := by
  obtain ⟨before, after, hLength, hItems⟩ := ClausePlace.exists_clauseItems_fill p.clauses
  have hOther (v : Json) (name : String) (h : name ≠ "filters") :=
    p.spec.member_other .null (p.clauses.fill (p.clauseWith v)) name h
  change ReadsInto _ _ _ fun v =>
    FilterSpec.read uri (.obj (p.spec.members (p.clauses.fill (p.clauseWith v)))) path
  simp only [FilterSpec.read, hOther _ "uri" (by decide), hOther _ "predicateName" (by decide),
    hOther _ "isOptional" (by decide), hOther _ "isSelectable" (by decide),
    hOther _ "datatype" (by decide), Field.member_self, hItems, raise_ok_bind]
  rw [← hLength]
  have hClauses := ReadsInto.readItems Clause.Adjusted.refl p.readClause_into before after
    (path ++ ".filters")
  -- a spec without an IRI is rejected before its clauses are looked at
  generalize (!(orElseEmpty (Json.member "uri" (p.spec.members .null)) uri).isSet) = lacking
  cases lacking with
  | true =>
    intro w spec hSpec
    cases hSpec
  | false => exact hClauses.bind_ok _ (fun _ => rfl) fun _ _ h => ⟨rfl, h⟩

/-- Nothing of the specs of an entry but the radius of that clause depends on it. -/
theorem readSpecs_into (p : RadiusPlace) (path : String) :
    ReadsInto (fun specs : List FilterSpec => specs[p.specs.index]?.bind fun spec =>
        spec.clauses[p.clauses.index]?.bind Clause.radius)
      (List.Forall₂ FilterSpec.Adjusted)
      (readMeasure ·
        (itemPath (p.specs.path path ++ ".filters") p.clauses.index ++ ".input.radius"))
      fun v => readSpecs (p.entryWith v) path := by
  simp only [entryWith, readSpecs, Frame.isSet_fill]
  cases hSpecs : p.specs with
  | item before after =>
    exact ReadsInto.readItems FilterSpec.Adjusted.refl (p.readSpec_into .null) before after path
  | member before name after =>
    exact ReadsInto.mapM
      (fun m : String × Json => FilterSpec.read (.str m.1) m.2 (path ++ "[" ++ quoted m.1 ++ "]"))
      (fun v => (name, p.specWith (p.clauses.fill (p.clauseWith v))))
      FilterSpec.Adjusted.refl (p.readSpec_into (.str name) (path ++ "[" ++ quoted name ++ "]"))
      before after

/-- The entry of the key is read, with the radius where the place is. -/
theorem readEntry_into (p : RadiusPlace) :
    ReadsInto
      (fun entry : String × List FilterSpec => entry.2[p.specs.index]?.bind fun spec =>
        spec.clauses[p.clauses.index]?.bind Clause.radius)
      EntryAdjusted (readMeasure · (p.clausePath ++ ".input.radius"))
      fun v => readEntry (p.key, p.entryWith v) :=
  (p.readSpecs_into ("filters[" ++ quoted p.key ++ "]")).map (fun specs => (p.key, specs))
    (fun _ => rfl) fun _ _ h => ⟨rfl, h⟩

/-- The entries of the filters stand where they are, whatever the radius. -/
theorem filterEntries_fill (p : RadiusPlace) (v : Json) :
    filterEntries (p.request.members (p.entries.fill v)) = .ok (p.entries.members v) := by
  rw [filterEntries, Field.member_self, Field.orElseEmpty_fill]
  rfl

/-- Nothing of a request but the radius of that clause depends on it. -/
theorem readRequest_into (p : RadiusPlace) :
    ReadsInto p.radiusIn Request.Adjusted (readMeasure · (p.clausePath ++ ".input.radius"))
      fun v => Request.read (p.request.fill (p.entries.fill (p.entryWith v))) := by
  have hOther (v : Json) (name : String) (h : name ≠ "filters") :=
    p.request.member_other .null v name h
  have hFilters := ReadsInto.mapM readEntry (fun v => (p.key, p.entryWith v)) EntryAdjusted.refl
    p.readEntry_into p.entries.before p.entries.after
  change ReadsInto _ _ _ fun v =>
    Request.read (.obj (p.request.members (p.entries.fill (p.entryWith v))))
  simp only [Request.read, p.filterEntries_fill, ok_bind, hOther _ "observables" (by decide),
    hOther _ "observablesKeys" (by decide), hOther _ "limit" (by decide),
    hOther _ "sortBy" (by decide), hOther _ "sensorPattern" (by decide)]
  refine .same _ fun items _ => .same _ fun observables _ => .same _ fun keys _ => ?_
  exact .past _ fun limit _ => hFilters.bind_ok _ (fun _ => rfl) fun _ _ h => .of_filters _ h

end RadiusPlace

namespace LimitPlace

variable (p : LimitPlace)

/-- The limit is read, whether or not there is one. -/
theorem readEnabledLimit_fill (v : Json) (path : String) :
    readEnabledLimit (p.modifiers.members (p.limit.fill v)) path =
      readLimit v (path ++ ".modifiers.limit.value") := by
  have hEnabled : (Json.member "enabled" (p.limit.members v)).isSet = true := by
    rw [p.limit.member_other .null v "enabled" (by decide)]
    exact p.enabled
  rw [readEnabledLimit, Field.member_self]
  cases hMissing : v.isMissing with
  | true => simp [enabledValue?, Field.fill, Field.member_self, hMissing, readLimit]
  | false => simp [enabledValue?, Field.fill, Field.member_self, hMissing, hEnabled]

/-- Nothing of an observable but its limit depends on the limit. -/
theorem readObservable_into (path : String) :
    ReadsInto Observable.limit Observable.Adjusted
      (readLimit · (path ++ ".modifiers.limit.value"))
      fun v => Observable.read (p.itemWith v) path := by
  have hOther (v : Json) (name : String) (h : name ≠ "modifiers") :=
    p.observable.member_other .null (p.modifiers.fill (p.limit.fill v)) name h
  have hOrder (v : Json) := p.modifiers.member_other .null (p.limit.fill v) "orderBy" (by decide)
  change ReadsInto _ _ _ fun v => Observable.read
    (.obj (p.observable.members (p.modifiers.fill (p.limit.fill v)))) path
  simp only [Observable.read, required, hOther _ "subject" (by decide),
    hOther _ "predicate" (by decide), hOther _ "object" (by decide), get_obj,
    Field.member_self, raise_ok_bind, Field.orElseEmpty_fill, Field.toMembers_fill, hOrder,
    p.readEnabledLimit_fill]
  refine .same _ fun subject _ => .same _ fun predicate _ => .same _ fun object _ => ?_
  exact (ReadsInto.value _).bind_ok _ (fun _ => rfl) fun _ _ _ => rfl

/-- Nothing of a request but the limit of that observable depends on it. -/
theorem readRequest_into :
    ReadsInto (fun r : Request => r.observables[p.before.length]?.bind Observable.limit)
      Request.Adjusted
      (readLimit · (itemPath "observables" p.before.length ++ ".modifiers.limit.value"))
      fun v => Request.read (p.request.fill (.arr (p.before ++ p.itemWith v :: p.after))) := by
  -- every field but the observables is read alike, whatever the number is
  have hOther (v : Json) (name : String) (h : name ≠ "observables") :=
    p.request.member_other .null v name h
  have hItems (v : Json) :
      (orElseEmpty (.arr (p.before ++ p.itemWith v :: p.after)) (.arr [])).toItems =
        .ok (p.before ++ p.itemWith v :: p.after) := by
    rw [orElseEmpty, if_pos (by simp [isSet])]
    rfl
  have hObservables := ReadsInto.readItems Observable.Adjusted.refl p.readObservable_into
    p.before p.after "observables"
  change ReadsInto _ _ _ fun v =>
    Request.read (.obj (p.request.members (.arr (p.before ++ p.itemWith v :: p.after))))
  simp only [Request.read, filterEntries, Field.member_self, hItems, raise_ok_bind,
    hOther _ "filters" (by decide), hOther _ "observablesKeys" (by decide),
    hOther _ "limit" (by decide), hOther _ "sortBy" (by decide),
    hOther _ "sensorPattern" (by decide)]
  refine .same _ fun entries _ => .past _ fun keys _ => .past _ fun filters _ =>
    .past _ fun limit _ => ?_
  exact hObservables.bind_ok _ (fun _ => rfl) fun _ _ h => .of_observables _ h

end LimitPlace

namespace NumberPlace

/-- Nothing of a request but its own limit depends on it. -/
theorem readRequest_limit (f : Field "limit") :
    ReadsInto Request.limit Request.Adjusted (readLimit · "limit")
      fun v => Request.read (f.fill v) := by
  have hOther (v : Json) (name : String) (h : name ≠ "limit") := f.member_other .null v name h
  change ReadsInto _ _ _ fun v => Request.read (.obj (f.members v))
  simp only [Request.read, filterEntries, Field.member_self, hOther _ "observables" (by decide),
    hOther _ "filters" (by decide), hOther _ "observablesKeys" (by decide),
    hOther _ "sortBy" (by decide), hOther _ "sensorPattern" (by decide)]
  refine .same _ fun entries _ => .same _ fun items _ => .same _ fun observables _ =>
    .same _ fun keys _ => .same _ fun filters _ => ?_
  exact (ReadsInto.value _).bind_ok _ (fun _ => rfl) fun _ _ _ => .of_limit _ _

/-- Whatever stands at the place, the request is read if that value is, and it has the amount of the
value where the place is. -/
theorem readRequest_into {e : Expected} (p : NumberPlace e) :
    ReadsInto p.amountIn Request.Adjusted (e.read · p.path)
      fun v => Request.read (p.requestWith v) := by
  cases p with
  | limit request => exact readRequest_limit request
  | ownLimit place => exact place.readRequest_into
  | radius place => exact place.readRequest_into

end NumberPlace

end SparqlSelect
