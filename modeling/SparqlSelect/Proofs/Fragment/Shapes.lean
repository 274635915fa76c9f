import SparqlSelect.Proofs.Fragment.Quoted

/-!
# The parts of circles and polygons

A circle is what stands in front of its unit, the unit between angle brackets, and a round bracket.
A polygon is a fixed text, its points, and a fixed text. Both are put together from coordinates,
and taken apart at these marks.

* `matches_circle`, `matches_polygon` — coordinates make a circle, and points a polygon.
* `exists_of_matches_circle`, `matches_polygon_iff_inner` — the parts of either.
* `not_matches_circle`, `not_matches_polygon` — no exponents stand in them.
-/

namespace SparqlSelect

open Pattern

section

variable {a b r s unit : List Char} {points : List (List Char)}

/-- What the unit of a circle is made of. -/
def unitPattern : Pattern := oneOrMore (chars (CharClass.outside (CharClass.blank.plus ['>'])))

/-- What stands in a circle in front of its unit. -/
def circleFront : Pattern :=
  char '(' ++ blanks ++ Token.coordinate ++ someBlanks ++ Token.coordinate ++ someBlanks ++
    Token.coordinate ++ someBlanks

theorem matches_space : Matches someBlanks [' '] := by
  have hAll : Matches someBlanks ([' '] ++ []) := .seq (.chars (by decide)) .stop
  exact hAll

/-- Two coordinates, a radius and a unit are a circle. -/
theorem matches_circle (ha : Matches Token.coordinate a) (hb : Matches Token.coordinate b)
    (hr : Matches Token.coordinate r) (hUnit : Matches unitPattern unit) :
    Matches Token.circle
      ('(' :: (a ++ ' ' :: (b ++ ' ' :: (r ++ ' ' :: '<' :: (unit ++ ['>', ')']))))) := by
  have hOpen : Matches (char '(') ['('] := .chars rfl
  have hLess : Matches (char '<') ['<'] := .chars rfl
  have hGreater : Matches (char '>') ['>'] := .chars rfl
  have hClose : Matches (char ')') [')'] := .chars rfl
  -- token by token, with no blanks where the pattern allows some
  have hFront : Matches circleFront
      (['('] ++ [] ++ a ++ [' '] ++ b ++ [' '] ++ r ++ [' ']) :=
    .seq (.seq (.seq (.seq (.seq (.seq (.seq hOpen .stop) ha) matches_space) hb) matches_space) hr)
      matches_space
  have hAll : Matches Token.circle (['('] ++ [] ++ a ++ [' '] ++ b ++ [' '] ++ r ++ [' '] ++
      ['<'] ++ unit ++ ['>'] ++ [] ++ [')']) :=
    .seq (.seq (.seq (.seq (.seq hFront hLess) hUnit) hGreater) .stop) hClose
  simpa using hAll

/-- A circle is its front, a unit between angle brackets, white space and a round bracket. -/
theorem exists_of_matches_circle (h : Matches Token.circle s) :
    ∃ front unit gap, Matches circleFront front ∧ Matches unitPattern unit ∧ Matches blanks gap ∧
      s = front ++ '<' :: (unit ++ '>' :: (gap ++ [')'])) := by
  -- the parts are taken off from the end
  obtain ⟨_, close, hToGap, hClose, rfl⟩ := matches_seq_iff.mp h
  obtain ⟨_, gap, hToGreater, hGap, rfl⟩ := matches_seq_iff.mp hToGap
  obtain ⟨_, greater, hToUnit, hGreater, rfl⟩ := matches_seq_iff.mp hToGreater
  obtain ⟨_, unit, hToLess, hUnit, rfl⟩ := matches_seq_iff.mp hToUnit
  obtain ⟨front, less, hFront, hLess, rfl⟩ := matches_seq_iff.mp hToLess
  obtain rfl := eq_of_matches_word (w := ['<']) hLess
  obtain rfl := eq_of_matches_word (w := ['>']) hGreater
  obtain rfl := eq_of_matches_word (w := [')']) hClose
  exact ⟨front, unit, gap, hFront, hUnit, hGap, by simp⟩

/-- No letter of an exponent stands in front of the unit of a circle. -/
theorem not_matches_circle {front rest : List Char} (hFront : '<' ∉ front) (he : 'e' ∈ front) :
    ¬ Matches Token.circle (front ++ '<' :: rest) := by
  intro h
  obtain ⟨start, unit, gap, hStart, -, -, hSplit⟩ := exists_of_matches_circle h
  obtain ⟨rfl, -⟩ := append_cons_inj hFront (not_mem_of_excludes hStart (by decide)) hSplit
  exact not_mem_of_excludes hStart (by decide) he

/-- The texts around the points of a polygon. -/
def polygonStart : List Char := "\"POLYGON((".toList

def polygonEnd : List Char := "))\"^^geo:wktLiteral".toList

/-- A point behind a comma. -/
def nextPoint : Pattern := blanks ++ char ',' ++ blanks ++ Token.point

theorem matches_word (w : List Char) : Matches (word w) w := by
  induction w using word.induct with
  | case1 => exact .nothing
  | case2 c => exact .chars (beq_self_eq_true c)
  | case3 c rest hSome ih =>
    rw [word.eq_3 c rest hSome]
    have hc : Matches (char c) [c] := .chars (beq_self_eq_true c)
    exact .seq hc ih

/-- Two coordinates and a blank make a point. -/
theorem matches_point (ha : Matches Token.coordinate a) (hb : Matches Token.coordinate b) :
    Matches Token.point (a ++ ' ' :: b) := by
  have hAll : Matches Token.point (a ++ [' '] ++ b) := .seq (.seq ha matches_space) hb
  simpa using hAll

/-- The points after the first, each behind a comma. -/
theorem matches_nextPoints (h : ∀ p ∈ points, Matches Token.point p) :
    Matches (many nextPoint) (points.flatMap fun p => ',' :: ' ' :: p) := by
  induction points with
  | nil => exact .stop
  | cons p points ih =>
    obtain ⟨hp, hPoints⟩ := List.forall_mem_cons.mp h
    have hComma : Matches (char ',') [','] := .chars rfl
    have hBlank : Matches blanks ([' '] ++ []) := .more (.chars (by decide)) .stop
    have hNext : Matches nextPoint ([] ++ [','] ++ ([' '] ++ []) ++ p) :=
      .seq (.seq (.seq .stop hComma) hBlank) hp
    exact .more hNext (ih hPoints)

/-- What stands between the brackets of a polygon. -/
def polygonInner : Pattern := blanks ++ Token.point ++ many nextPoint ++ blanks

/-- A polygon is its points between two fixed texts. -/
theorem matches_polygon_iff_inner :
    Matches Token.polygon s ↔
      ∃ inner, Matches polygonInner inner ∧ s = polygonStart ++ inner ++ polygonEnd := by
  constructor
  · -- taken apart from the last part to the first, with the fixed texts at both ends
    intro h
    obtain ⟨_, close, hToGap, hClose, rfl⟩ := matches_seq_iff.mp h
    obtain ⟨_, gap, hToNext, hGap, rfl⟩ := matches_seq_iff.mp hToGap
    obtain ⟨_, next, hToPoint, hNext, rfl⟩ := matches_seq_iff.mp hToNext
    obtain ⟨_, point, hToLead, hPoint, rfl⟩ := matches_seq_iff.mp hToPoint
    obtain ⟨start, lead, hStart, hLead, rfl⟩ := matches_seq_iff.mp hToLead
    obtain rfl := eq_of_matches_word (w := polygonStart) hStart
    obtain rfl := eq_of_matches_word (w := polygonEnd) hClose
    have hInner : Matches polygonInner (lead ++ point ++ next ++ gap) :=
      .seq (.seq (.seq hLead hPoint) hNext) hGap
    exact ⟨_, hInner, by simp only [List.append_assoc]⟩
  · rintro ⟨inner, hInner, rfl⟩
    obtain ⟨_, gap, hToNext, hGap, rfl⟩ := matches_seq_iff.mp hInner
    obtain ⟨_, next, hToPoint, hNext, rfl⟩ := matches_seq_iff.mp hToNext
    obtain ⟨lead, point, hLead, hPoint, rfl⟩ := matches_seq_iff.mp hToPoint
    have hStart : Matches (word polygonStart) polygonStart := matches_word _
    have hEnd : Matches (word polygonEnd) polygonEnd := matches_word _
    have hAll : Matches Token.polygon
        (polygonStart ++ lead ++ point ++ next ++ gap ++ polygonEnd) :=
      .seq (.seq (.seq (.seq (.seq hStart hLead) hPoint) hNext) hGap) hEnd
    simpa only [List.append_assoc] using hAll

/-- What stands in front of the points of a polygon, behind its first quote. -/
def polygonName : List Char := "POLYGON((".toList

/-- What stands behind the second quote of a polygon. -/
def polygonDatatype : List Char := "^^geo:wktLiteral".toList

/-- What stands between the quotes of a polygon with these points. -/
def polygonBody (inner : List Char) : List Char := polygonName ++ (inner ++ [')', ')'])

/-- A polygon's text is its quoted body and its datatype. -/
theorem polygonText_eq (inner : List Char) : polygonStart ++ inner ++ polygonEnd =
    '"' :: (polygonBody inner ++ '"' :: polygonDatatype) := by
  have hStart : polygonStart = '"' :: polygonName := rfl
  have hEnd : polygonEnd = [')', ')'] ++ '"' :: polygonDatatype := rfl
  simp only [hStart, hEnd, polygonBody, List.cons_append, List.append_assoc]

/-- None of these characters stands between the quotes of a polygon. -/
theorem plain_of_polygonBody {inner : List Char} (h : Matches polygonInner inner) :
    ∀ c ∈ polygonBody inner, isQuote c = false ∧ c ≠ '<' ∧ c ≠ '\\' := by
  have hText :
      Matches (word polygonName ++ (polygonInner ++ word [')', ')'])) (polygonBody inner) :=
    .seq (matches_word _) (.seq h (matches_word _))
  have hExcludes : (['"', '\'', '<', '\\'].all
      (word polygonName ++ (polygonInner ++ word [')', ')'])).excludes) = true := by decide
  exact fun c hc => by
    simpa [isQuote, and_assoc] using not_mem_of_all_excludes hText hExcludes c hc

/-- Points are a polygon. -/
theorem matches_polygon {p : List Char} (hp : Matches Token.point p)
    (h : ∀ p ∈ points, Matches Token.point p) :
    Matches Token.polygon
      (polygonStart ++ (p ++ points.flatMap fun p => ',' :: ' ' :: p) ++ polygonEnd) := by
  have hInner : Matches polygonInner ([] ++ p ++ (points.flatMap fun p => ',' :: ' ' :: p) ++ []) :=
    .seq (.seq (.seq .stop hp) (matches_nextPoints h)) .stop
  exact matches_polygon_iff_inner.mpr ⟨_, by simpa using hInner, rfl⟩

/-- No letter of an exponent stands between the brackets of a polygon. -/
theorem not_matches_polygon {inner : List Char} (he : 'e' ∈ inner) :
    ¬ Matches Token.polygon (polygonStart ++ inner ++ polygonEnd) := by
  intro h
  obtain ⟨other, hOther, hSplit⟩ := matches_polygon_iff_inner.mp h
  rw [List.append_cancel_right_eq, List.append_cancel_left_eq] at hSplit
  exact not_mem_of_excludes hOther (by decide) (hSplit ▸ he)

end

end SparqlSelect
