/-!
# Dates and times

A moment is a time of day, or a time on a day of the calendar. Both may have an offset from
universal time. They are kept in microseconds.

* `dayNumber` — the number of a day, the first of January of the year 1 being day 1.
* `weekDayNumber?` — the day number of a day of a week of a year.
* `Moment.after?` — whether a moment comes after another of its form.
-/

namespace SparqlSelect

/-- Whether a year has a 29th of February. -/
def isLeapYear (year : Nat) : Bool := year % 4 == 0 && (year % 100 != 0 || year % 400 == 0)

/-- How many days a month has. -/
def daysInMonth (year month : Nat) : Nat :=
  if month == 2 then (if isLeapYear year then 29 else 28)
  else if [4, 6, 9, 11].contains month then 30 else 31

/-- How many days there are before a year. -/
def daysBeforeYear (year : Nat) : Nat :=
  let y := year - 1
  y * 365 + y / 4 - y / 100 + y / 400

/-- How many days of a year there are before a month. -/
def daysBeforeMonth (year month : Nat) : Nat :=
  (List.range' 1 (month - 1)).foldl (fun days m => days + daysInMonth year m) 0

/-- The number of a day. -/
def dayNumber (year month day : Nat) : Nat :=
  daysBeforeYear year + daysBeforeMonth year month + day

/-- The last year of the calendar. -/
def lastYear : Nat := 9999

/-- The number of a day of the calendar, if there is such a day. -/
def dayNumber? (year month day : Nat) : Option Nat :=
  if 1 ≤ year ∧ year ≤ lastYear ∧ 1 ≤ month ∧ month ≤ 12 ∧ 1 ≤ day ∧
      day ≤ daysInMonth year month then
    some (dayNumber year month day)
  else none

/-- Whether a year has 53 weeks: it begins on a Thursday, or on a Wednesday and is a leap year. -/
def hasLongCount (year : Nat) : Bool :=
  let first := dayNumber year 1 1 % 7
  first == 4 || (first == 3 && isLeapYear year)

/-- The Monday of the week that holds the first Thursday of a year. -/
def firstMonday (year : Nat) : Nat :=
  let first := dayNumber year 1 1
  let weekday := (first + 6) % 7
  if weekday ≤ 3 then first - weekday else first + 7 - weekday

/-- The number of a day of a week, Monday being the first, if there is such a day. -/
def weekDayNumber? (year week day : Nat) : Option Nat :=
  if 1 ≤ year ∧ year ≤ lastYear ∧ 1 ≤ week ∧ (week ≤ 52 ∨ (week = 53 ∧ hasLongCount year)) ∧
      1 ≤ day ∧ day ≤ 7 then
    let number := firstMonday year + (week - 1) * 7 + (day - 1)
    if number ≤ dayNumber lastYear 12 31 then some number else none
  else none

/-- A moment in microseconds, with its offset from universal time in microseconds if it has one. -/
inductive Moment where
  /-- A time on a day, counted from the day before day 1. -/
  | dateTime (micros : Int) (offset : Option Int)
  /-- A time of day. -/
  | time (micros : Int) (offset : Option Int)
deriving DecidableEq, Repr

/-- Microseconds in a second. -/
def perSecond : Int := 1000000

/-- Whether a moment comes after another. Moments of different forms, and one with an offset and one
without, cannot be compared. Offsets of times of day count in whole seconds. -/
def Moment.after? : Moment → Moment → Option Bool
  | .dateTime a none, .dateTime b none | .time a none, .time b none => some (decide (b < a))
  | .dateTime a (some s), .dateTime b (some t) => some (decide (b - t < a - s))
  | .time a (some s), .time b (some t) =>
    some (decide (b - t.fdiv perSecond * perSecond < a - s.fdiv perSecond * perSecond))
  | _, _ => none

end SparqlSelect
