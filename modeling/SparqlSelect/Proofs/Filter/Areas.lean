import SparqlSelect.Proofs.Filter.Coordinates
import SparqlSelect.Proofs.Filter.Typed
import SparqlSelect.Proofs.Fragment.Kinds
import SparqlSelect.Proofs.Fragment.Shapes

/-!
# Which circles and polygons are accepted

A circle and a polygon are accepted if each of their coordinates is written as one. A coordinate
with an exponent makes the difference: no part of a circle in front of its unit can hold the letter
of an exponent, and no part of a polygon between its brackets. A polygon with such a coordinate can
still be the object of a triple, since it is a text with a datatype all the same; a circle cannot.

* `matches_circle_iff`, `matches_polygon_iff` — in terms of their coordinates.
* `Clause.AsksForCircle`, `Clause.AsksForPolygon` — clauses with finite numbers.
* `areas_accepted` — which of these clauses give a fragment that is accepted.
-/

namespace SparqlSelect

open Pattern Binary64

-- ---------------------------------------------------------------------------
-- Clauses
-- ---------------------------------------------------------------------------

/-- A point given as a pair, or as an object with members of these names. -/
inductive Json.IsPoint : Json → Json × Json → Prop
  | pair (latitude longitude : Json) : IsPoint (.arr [latitude, longitude]) (latitude, longitude)
  | object {members : List (String × Json)} {latitude longitude : Json} :
    members.lookup "lat" = some latitude → members.lookup "lng" = some longitude →
    IsPoint (.obj members) (latitude, longitude)

/-- A clause that asks for what is near to a place, all its numbers being finite. -/
structure Clause.AsksForCircle (c : Clause) (place : Json × Json) : Prop where
  kind : FilterKind.of c.name = .ok .nearby
  center : ∃ members, c.center = .obj members ∧ members.lookup "lat" = some place.1 ∧
    members.lookup "lng" = some place.2
  radius : ∃ s u, c.radius = some (.finite s u) ∧ u < unitLimit
  isFinite : place.1.isFiniteNumber = true ∧ place.2.isFiniteNumber = true

/-- A clause that asks for what is within an area, all its numbers being finite. -/
structure Clause.AsksForPolygon (c : Clause) (corners : List (Json × Json)) : Prop where
  kind : FilterKind.of c.name = .ok .within
  points : List.Forall₂ Json.IsPoint c.points corners
  isSome : corners ≠ []
  isFinite : ∀ corner ∈ corners, corner.1.isFiniteNumber = true ∧ corner.2.isFiniteNumber = true

/-- Whether one of two coordinates is tiny. -/
def hasTiny (point : Json × Json) : Bool := point.1.isTiny || point.2.isTiny

section

variable {s : Settings} {c : Clause} {e : String} {var datatype : Option Json}
  {place : Json × Json} {corners : List (Json × Json)}

/-- A clause for a place is translated to its circle or its polygon. -/
theorem translate_place (h : FilterKind.of c.name = .ok .nearby ∧ circleOf s c = .ok (some e) ∨
    FilterKind.of c.name = .ok .within ∧ polygonOf c = .ok (some e)) :
    (s.translate c var datatype).outcome = .ok (some e) := by
  rcases h with ⟨hKind, hFound⟩ | ⟨hKind, hFound⟩
  · obtain ⟨name, hName, hPlain⟩ := map_eq_ok_iff.mp hKind
    rw [Settings.translate, Traced.liftM_raise_eq_pure hName, pure_bind, hPlain]
    dsimp only
    rw [hFound]
    rfl
  · obtain ⟨name, hName, hPlain⟩ := map_eq_ok_iff.mp hKind
    rw [Settings.translate, Traced.liftM_raise_eq_pure hName, pure_bind, hPlain]
    dsimp only
    rw [hFound]
    rfl

theorem Clause.AsksForCircle.circleOf_eq (h : c.AsksForCircle place) (s : Settings) :
    ∃ r : String, Matches Token.coordinate r.toList ∧ circleOf s c =
      .ok (some ("(" ++ coordinateText place.1 ++ " " ++ coordinateText place.2 ++ " " ++ r ++
        " <" ++ s.distanceUnit.display ++ ">)")) := by
  obtain ⟨t, u, hRadius, hu⟩ := h.radius
  obtain ⟨members, hCenter, hLatitude, hLongitude⟩ := h.center
  have hSet : (Json.obj members).isSet = true := by
    cases members with
    | nil => cases hLatitude
    | cons _ _ => rfl
  refine ⟨kilometers (.finite t u), matches_kilometers t hu, ?_⟩
  rw [circleOf, hRadius, hCenter]
  simp only [hSet, if_true, holdsName, namedMember, hLatitude, hLongitude]
  rfl

theorem corner_of_isPoint {p : Json} {corner' : Json × Json} (h : p.IsPoint corner') :
    corner p = .ok corner' := by
  cases h with
  | pair latitude longitude => rfl
  | object hLatitude hLongitude =>
    simp only [corner, namedMember, hLatitude, hLongitude]
    rfl

theorem Clause.AsksForPolygon.polygonOf_eq (h : c.AsksForPolygon corners) :
    polygonOf c = .ok (some ("\"POLYGON((" ++ ", ".intercalate (corners.map fun corner =>
      coordinateText corner.2 ++ " " ++ coordinateText corner.1) ++ "))\"^^geo:wktLiteral")) := by
  have hCorners : c.points.mapM corner = .ok corners :=
    mapM_eq_ok_iff.mpr (h.points.imp fun _ _ => corner_of_isPoint)
  have hSome : corners.isEmpty = false := by simp [h.isSome]
  rw [polygonOf, hCorners]
  change (if corners.isEmpty then _ else _) = _
  rw [hSome]
  rfl

/-- A circle of two coordinates with finite numbers is accepted exactly if neither is tiny. -/
theorem matches_circle_iff {latitude longitude : Json} (hLatitude : latitude.isFiniteNumber = true)
    (hLongitude : longitude.isFiniteNumber = true) (hr : Matches Token.coordinate r)
    (hUnit : Matches unitPattern unit) :
    Matches Token.circle ('(' :: ((coordinateText latitude).toList ++ ' ' ::
        ((coordinateText longitude).toList ++ ' ' :: (r ++ ' ' :: '<' :: (unit ++ ['>', ')']))))) ↔
      hasTiny (latitude, longitude) = false := by
  -- the first angle bracket is the one of the unit, as numbers have none
  have hLess : '<' ∉ '(' :: ((coordinateText latitude).toList ++ ' ' ::
      ((coordinateText longitude).toList ++ ' ' :: (r ++ [' ']))) := by
    have hLatitude := coordinateText_excludes hLatitude (d := '<') (by decide)
    have hLongitude := coordinateText_excludes hLongitude (d := '<') (by decide)
    have hRadius : '<' ∉ r := not_mem_of_excludes hr (by decide)
    simp [hLatitude, hLongitude, hRadius]
  constructor
  · intro h
    have hSplit : '(' :: ((coordinateText latitude).toList ++ ' ' ::
        ((coordinateText longitude).toList ++ ' ' :: (r ++ ' ' :: '<' :: (unit ++ ['>', ')'])))) =
        ('(' :: ((coordinateText latitude).toList ++ ' ' ::
          ((coordinateText longitude).toList ++ ' ' :: (r ++ [' '])))) ++
            '<' :: (unit ++ ['>', ')']) := by simp
    rw [hSplit] at h
    rw [Bool.eq_false_iff]
    intro hTiny
    refine not_matches_circle hLess ?_ h
    -- a tiny coordinate is written with an exponent, whose letter no circle can hold
    rcases Bool.or_eq_true_iff.mp hTiny with hTiny | hTiny
    · have hLetter := ((coordinateText_spec hLatitude).2 hTiny).1
      simp [hLetter]
    · have hLetter := ((coordinateText_spec hLongitude).2 hTiny).1
      simp [hLetter]
  · intro hLarge
    obtain ⟨hLarge, hLarge'⟩ := Bool.or_eq_false_iff.mp hLarge
    exact matches_circle ((coordinateText_spec hLatitude).1 hLarge)
      ((coordinateText_spec hLongitude).1 hLarge') hr hUnit

/-- Nothing that starts with a bracket but a circle can be the object of a triple. -/
theorem acceptsAny_forObject_bracket {t : List Char} (h : e.toList = '(' :: t) :
    Kind.acceptsAny Kind.forObject e = Kind.circle.accepts e.toList := by
  rw [Bool.eq_iff_iff, Kind.acceptsAny_forObject_iff, Kind.accepts, accepts_iff, h]
  have hOther (p : Pattern) (hStart : p.following '(' = []) : ¬ Matches p ('(' :: t) :=
    not_matches_cons hStart t
  simp only [hOther Token.var (by decide), hOther Token.iri (by decide),
    hOther Token.prefixedName (by decide), hOther Token.native (by decide),
    hOther Token.polygon (by decide), false_or, or_false]

/-- The texts of the points of a polygon, longitudes first. -/
def pointText (point : Json × Json) : String :=
  coordinateText point.2 ++ " " ++ coordinateText point.1

theorem toList_pointText (point : Json × Json) : (pointText point).toList =
    (coordinateText point.2).toList ++ ' ' :: (coordinateText point.1).toList := by
  simp [pointText]

/-- Points with commas between them. -/
theorem toList_intercalate_points (p : String) (ps : List String) :
    (", ".intercalate (p :: ps)).toList =
      p.toList ++ (ps.map (·.toList)).flatMap fun q => ',' :: ' ' :: q := by
  induction ps generalizing p with
  | nil => simp
  | cons q ps ih =>
    rw [String.intercalate_cons_of_ne_nil (by simp), String.toList_append, ih]
    simp

theorem mem_intercalate_points {p : String} {ps : List String} {d : Char} (hp : p ∈ ps)
    (hd : d ∈ p.toList) : d ∈ (", ".intercalate ps).toList := by
  cases ps with
  | nil => cases hp
  | cons first rest =>
    rw [toList_intercalate_points]
    rcases List.mem_cons.mp hp with rfl | hRest
    · exact List.mem_append_left _ hd
    · refine List.mem_append_right _ (List.mem_flatMap.mpr ?_)
      exact ⟨p.toList, List.mem_map_of_mem hRest, by simp [hd]⟩

/-- A tiny coordinate brings the letter of an exponent. -/
theorem exponent_mem_pointText {p : Json × Json}
    (hFinite : p.1.isFiniteNumber = true ∧ p.2.isFiniteNumber = true) (hTiny : hasTiny p = true) :
    'e' ∈ (pointText p).toList := by
  rw [toList_pointText]
  rcases Bool.or_eq_true_iff.mp hTiny with hTiny | hTiny
  · have hLetter := ((coordinateText_spec hFinite.1).2 hTiny).1
    simp [hLetter]
  · have hLetter := ((coordinateText_spec hFinite.2).2 hTiny).1
    simp [hLetter]

/-- A polygon of finite numbers is accepted exactly if none of its coordinates is tiny. -/
theorem matches_polygon_iff (hSome : corners ≠ [])
    (hFinite : ∀ p ∈ corners, p.1.isFiniteNumber = true ∧ p.2.isFiniteNumber = true) :
    Matches Token.polygon (polygonStart ++
        (", ".intercalate (corners.map pointText)).toList ++ polygonEnd) ↔
      corners.any hasTiny = false := by
  constructor
  · intro h
    rw [Bool.eq_false_iff]
    intro hAny
    obtain ⟨p, hp, hTiny⟩ := List.any_eq_true.mp hAny
    have hLetter := exponent_mem_pointText (hFinite p hp) hTiny
    exact not_matches_polygon (mem_intercalate_points (List.mem_map_of_mem hp) hLetter) h
  · intro hNone
    -- corners that are not tiny are written as points
    have hPoints : ∀ p ∈ corners, Matches Token.point (pointText p).toList := by
      intro p hp
      obtain ⟨hLatitude, hLongitude⟩ := hFinite p hp
      obtain ⟨hLarge, hLarge'⟩ := Bool.or_eq_false_iff.mp
        (Bool.eq_false_iff.mpr fun hTiny => List.any_eq_false.mp hNone p hp hTiny)
      rw [toList_pointText]
      exact matches_point ((coordinateText_spec hLongitude).1 hLarge')
        ((coordinateText_spec hLatitude).1 hLarge)
    obtain ⟨first, rest, rfl⟩ := List.exists_cons_of_ne_nil hSome
    obtain ⟨hFirst, hRest⟩ := List.forall_mem_cons.mp hPoints
    rw [List.map_cons, toList_intercalate_points]
    refine matches_polygon hFirst fun q hq => ?_
    simp only [List.map_map, List.mem_map, Function.comp_apply] at hq
    obtain ⟨p, hp, rfl⟩ := hq
    exact hRest p hp

theorem not_mem_quoteBreaks {t : List Char} (h : t.all (!quoteBreaks.contains ·) = true) :
    ∀ c ∈ t, c ∉ quoteBreaks := by
  intro c hc hBreaks
  have hOther := List.all_eq_true.mp h c hc
  rw [List.contains_iff_mem.mpr hBreaks] at hOther
  cases hOther

/-- A quoted text with the name of a datatype can be the object of a triple. -/
theorem acceptsAny_forObject_quoted {b : List Char} (hBody : QuotedBody b)
    (he : e.toList = '"' :: (b ++ "\"^^geo:wktLiteral".toList)) :
    Kind.acceptsAny Kind.forObject e = true := by
  rw [Kind.acceptsAny_forObject_iff]
  refine .inr (.inr (.inr (.inl ?_)))
  -- the quoted body first, then the datatype that follows its closing quote
  have hText : Matches Token.text ('"' :: (b ++ ['"'])) := matches_text_iff.mpr ⟨b, hBody, rfl⟩
  have hTail : Matches (optional (Token.languageOf Token.anyCaseLetter |||
      (word ['^', '^'] ++ (Token.iri ||| Token.prefixedNameOf Token.anyCaseLetter))))
      "^^geo:wktLiteral".toList := accepts_iff.mp (by decide +kernel)
  have hAll := Matches.seq hText hTail
  have hSame : '"' :: (b ++ ['"']) ++ "^^geo:wktLiteral".toList = e.toList := by
    rw [he]
    simp
  rw [hSame] at hAll
  exact .right hAll

/-- A polygon can be the object of a triple, whatever its points are. -/
theorem acceptsAny_forObject_polygon {inner : List Char}
    (hInner : ∀ c ∈ inner, c ∉ quoteBreaks)
    (he : e.toList = polygonStart ++ inner ++ polygonEnd) :
    Kind.acceptsAny Kind.forObject e = true := by
  have hStart := not_mem_quoteBreaks (t := "POLYGON((".toList) (by decide)
  have hEnd := not_mem_quoteBreaks (t := "))".toList) (by decide)
  have hBody : QuotedBody ("POLYGON((".toList ++ inner ++ "))".toList) :=
    quotedBody_of_plain (by simpa only [List.forall_mem_append] using ⟨⟨hStart, hInner⟩, hEnd⟩)
  refine acceptsAny_forObject_quoted hBody (he.trans ?_)
  have hQuote : polygonStart = '"' :: "POLYGON((".toList := rfl
  have hUnquote : polygonEnd = "))".toList ++ "\"^^geo:wktLiteral".toList := rfl
  rw [hQuote, hUnquote]
  simp only [List.cons_append, List.append_assoc]

/-- The points of a polygon of finite numbers do not end a literal. -/
theorem intercalate_points_excludes
    (hFinite : ∀ p ∈ corners, p.1.isFiniteNumber = true ∧ p.2.isFiniteNumber = true) {d : Char}
    (hd : d ∈ quoteBreaks) :
    d ∉ (", ".intercalate (corners.map pointText)).toList := by
  have hPoint : ∀ p ∈ corners, d ∉ (pointText p).toList := by
    intro p hp
    have hSpace : d ≠ ' ' := by
      rintro rfl
      exact absurd hd (by decide)
    obtain ⟨hLatitude, hLongitude⟩ := hFinite p hp
    rw [toList_pointText, List.mem_append, List.mem_cons]
    rintro (hMem | rfl | hMem)
    · exact coordinateText_excludes hLongitude (List.mem_cons_of_mem _ hd) hMem
    · exact hSpace rfl
    · exact coordinateText_excludes hLatitude (List.mem_cons_of_mem _ hd) hMem
  -- the corners, and the comma and the blank between them
  cases corners with
  | nil => exact List.not_mem_nil
  | cons first rest =>
    obtain ⟨hFirst, hRest⟩ := List.forall_mem_cons.mp hPoint
    rw [List.map_cons, toList_intercalate_points, List.mem_append]
    rintro (hMem | hMem)
    · exact hFirst hMem
    · simp only [List.map_map, List.mem_flatMap, List.mem_map, Function.comp_apply] at hMem
      obtain ⟨_, ⟨p, hp, rfl⟩, hMem⟩ := hMem
      rcases List.mem_cons.mp hMem with rfl | hMem
      · exact absurd hd (by decide)
      · rcases List.mem_cons.mp hMem with rfl | hMem
        · exact absurd hd (by decide)
        · exact hRest p hp hMem

theorem toList_circle (a b r unit : String) :
    ("(" ++ a ++ " " ++ b ++ " " ++ r ++ " <" ++ unit ++ ">)").toList =
      '(' :: (a.toList ++ ' ' :: (b.toList ++ ' ' :: (r.toList ++ ' ' :: '<' ::
        (unit.toList ++ ['>', ')'])))) := by
  simp

theorem Clause.AsksForCircle.exists_accepted (h : c.AsksForCircle place)
    (var datatype : Option Json) :
    ∃ e, (Settings.standard.translate c var datatype).outcome = .ok (some e) ∧
      Kind.circle.accepts e.toList = !hasTiny place ∧
      Kind.acceptsAny Kind.forObject e = !hasTiny place := by
  obtain ⟨r, hRadius, hFound⟩ := h.circleOf_eq .standard
  have hUnit : Matches unitPattern Settings.standard.distanceUnit.display.toList :=
    accepts_iff.mp (by decide +kernel)
  -- the unit of the settings is a fixed text, so the circle stands and falls with its numbers
  have hIff := matches_circle_iff h.isFinite.1 h.isFinite.2 hRadius hUnit
  have hFragment (text : String) (hText : text = "(" ++ coordinateText place.1 ++ " " ++
      coordinateText place.2 ++ " " ++ r ++ " <" ++ Settings.standard.distanceUnit.display ++
      ">)") :
      Kind.circle.accepts text.toList = !hasTiny place ∧
        Kind.acceptsAny Kind.forObject text = !hasTiny place := by
    have hList := hText ▸ toList_circle (coordinateText place.1) (coordinateText place.2)
      r Settings.standard.distanceUnit.display
    have hCircle : Kind.circle.accepts text.toList = !hasTiny place := by
      rw [Bool.eq_iff_iff, Bool.not_eq_true', Kind.accepts, accepts_iff, hList]
      exact hIff
    exact ⟨hCircle, (acceptsAny_forObject_bracket hList).trans hCircle⟩
  exact ⟨_, translate_place (.inl ⟨h.kind, hFound⟩), hFragment _ rfl⟩

theorem Clause.AsksForPolygon.exists_accepted (h : c.AsksForPolygon corners)
    (var datatype : Option Json) :
    ∃ e, (Settings.standard.translate c var datatype).outcome = .ok (some e) ∧
      Kind.polygon.accepts e.toList = !corners.any hasTiny ∧
      Kind.acceptsAny Kind.forObject e = true := by
  -- a polygon is a quoted text, so it is an object even where the numbers have an exponent
  have hIff := matches_polygon_iff h.isSome h.isFinite
  have hPlain (d : Char) (hd : d ∈ quoteBreaks) := intercalate_points_excludes h.isFinite hd
  have hFragment (text : String) (hText : text = "\"POLYGON((" ++
      ", ".intercalate (corners.map pointText) ++ "))\"^^geo:wktLiteral") :
      Kind.polygon.accepts text.toList = !corners.any hasTiny ∧
        Kind.acceptsAny Kind.forObject text = true := by
    have hList : text.toList =
        polygonStart ++ (", ".intercalate (corners.map pointText)).toList ++ polygonEnd := by
      rw [hText, String.toList_append, String.toList_append]
      rfl
    generalize (", ".intercalate (corners.map pointText)).toList = points at hIff hPlain hList
    constructor
    · rw [Bool.eq_iff_iff, Bool.not_eq_true', Kind.accepts, accepts_iff, hList]
      exact hIff
    · exact acceptsAny_forObject_polygon (fun c hc hd => hPlain c hd hc) hList
  exact ⟨_, translate_place (.inr ⟨h.kind, h.polygonOf_eq⟩), hFragment _ rfl⟩

/-- **A clause with finite numbers always gives a circle or a polygon, but one with a tiny
coordinate is not accepted as such.** The circle cannot be the object of a triple then; the polygon
still can, as a literal with a datatype. -/
theorem areas_accepted (c : Clause) (var datatype : Option Json) :
    (∀ place, c.AsksForCircle place →
      ∃ e, (Settings.standard.translate c var datatype).outcome = .ok (some e) ∧
        Kind.circle.accepts e.toList = !hasTiny place ∧
        Kind.acceptsAny Kind.forObject e = !hasTiny place) ∧
      ∀ corners, c.AsksForPolygon corners →
        ∃ e, (Settings.standard.translate c var datatype).outcome = .ok (some e) ∧
          Kind.polygon.accepts e.toList = !corners.any hasTiny ∧
          Kind.acceptsAny Kind.forObject e = true :=
  ⟨fun _ h => h.exists_accepted var datatype, fun _ h => h.exists_accepted var datatype⟩

end

/-- What is near to a latitude on the first meridian. -/
def nearTo (latitude : Json) : Clause where
  name := .str "nearby"
  value := .null
  comparison := ">"
  center := .obj [("lat", latitude), ("lng", .int 0)]
  radius := some (.finite false (1500 * unitsPerOne))
  points := []
  combination := ""

/-- What is within a triangle. -/
def triangle (latitude : Json) : Clause where
  name := .str "within"
  value := .null
  comparison := ">"
  center := .null
  radius := none
  points := [.arr [latitude, .int 0], .obj [("lat", .int 51), ("lng", .int 1)],
    .arr [.int 52, .int 2]]
  combination := ""

theorem asksForCircle_nearTo {latitude : Json} (h : latitude.isFiniteNumber = true) :
    (nearTo latitude).AsksForCircle (latitude, .int 0) where
  kind := (by decide +kernel : FilterKind.of (.str "nearby") = .ok .nearby)
  center := ⟨_, rfl, rfl, rfl⟩
  radius := ⟨false, 1500 * unitsPerOne, rfl, by decide +kernel⟩
  isFinite := ⟨h, rfl⟩

theorem asksForPolygon_triangle {latitude : Json} (h : latitude.isFiniteNumber = true) :
    (triangle latitude).AsksForPolygon
      [(latitude, .int 0), (.int 51, .int 1), (.int 52, .int 2)] where
  kind := (by decide +kernel : FilterKind.of (.str "within") = .ok .within)
  points := .cons (.pair _ _) (.cons (.object rfl rfl) (.cons (.pair _ _) .nil))
  isSome := List.cons_ne_nil _ _
  isFinite := by
    simp only [List.forall_mem_cons]
    exact ⟨⟨h, rfl⟩, ⟨rfl, rfl⟩, ⟨rfl, rfl⟩, List.forall_mem_nil _⟩

/-- Half a degree is written as a coordinate. -/
theorem areas_accepted_half :
    (∃ e, (Settings.standard.translate (nearTo (.float (ofDecimal false 5 (-1)))) none
        none).outcome = .ok (some e) ∧ Kind.circle.accepts e.toList = true) ∧
      ∃ e, (Settings.standard.translate (triangle (.float (ofDecimal false 5 (-1)))) none
        none).outcome = .ok (some e) ∧ Kind.polygon.accepts e.toList = true := by
  have hHalf : (Json.float (ofDecimal false 5 (-1))).isFiniteNumber = true := by decide +kernel
  have hLarge : (Json.float (ofDecimal false 5 (-1))).isTiny = false := by decide +kernel
  obtain ⟨e, hCircle, hAccepted, -⟩ :=
    (areas_accepted (nearTo _) none none).1 _ (asksForCircle_nearTo hHalf)
  obtain ⟨e', hPolygon, hAccepted', -⟩ :=
    (areas_accepted (triangle _) none none).2 _ (asksForPolygon_triangle hHalf)
  refine ⟨⟨e, hCircle, ?_⟩, e', hPolygon, ?_⟩
  · rw [hAccepted, hasTiny, hLarge]
    rfl
  · rw [hAccepted', List.any_cons, hasTiny, hLarge]
    rfl

/-- A hundred-thousandth of a degree is not. -/
theorem circle_refused :
    (nearTo (.float (ofDecimal false 1 (-5)))).AsksForCircle
        (.float (ofDecimal false 1 (-5)), .int 0) ∧
      (Settings.standard.translate (nearTo (.float (ofDecimal false 1 (-5)))) none none).outcome =
        .ok (some "(1e-05 0 1.5 <http://qudt.org/vocab/unit#Kilometer>)") ∧
      Kind.circle.accepts "(1e-05 0 1.5 <http://qudt.org/vocab/unit#Kilometer>)".toList = false ∧
      Kind.acceptsAny Kind.forObject "(1e-05 0 1.5 <http://qudt.org/vocab/unit#Kilometer>)" =
        false := by
  have hFinite : (Json.float (ofDecimal false 1 (-5))).isFiniteNumber = true := by decide +kernel
  have hAsks := asksForCircle_nearTo hFinite
  have hFound : circleOf .standard (nearTo (.float (ofDecimal false 1 (-5)))) =
      .ok (some "(1e-05 0 1.5 <http://qudt.org/vocab/unit#Kilometer>)") := by decide +kernel
  exact ⟨hAsks, translate_place (.inl ⟨hAsks.kind, hFound⟩), by decide +kernel, by decide +kernel⟩

end SparqlSelect
