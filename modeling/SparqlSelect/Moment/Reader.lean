import SparqlSelect.Moment.Basic
import SparqlSelect.Number.Power

/-!
# Reading dates and times

The forms are those of ISO 8601: `YYYY-MM-DD`, `YYYYMMDD`, `YYYY-Www-D`, `YYYYWwwD` and the two last
without the day; after any one character a time; and a time alone, with or without a `T` before it.
A time is hours, minutes and seconds, with colons or without, of which the last may be left out, a
fraction, and an offset. A null character ends a time as the end of the text does: it may be the one
character after a pair of digits, and after a fraction nothing behind it is looked at.

* `Moment.read?` — a date with or without a time, else a time.
-/

namespace SparqlSelect.Moment

/-- The number that so many ASCII digits write at the start of a text. -/
def fixedDigits? (count : Nat) (s : List Char) : Option (Nat × List Char) :=
  let digits := s.take count
  if digits.length = count ∧ digits.all Char.isDigit then
    some (digits.foldl (fun n c => n * 10 + (c.toNat - '0'.toNat)) 0, s.drop count)
  else none

-- ---------------------------------------------------------------------------
-- Times
-- ---------------------------------------------------------------------------

/-- The parts of a time or an offset; `clean` says whether they are all that was written. -/
structure Clock where
  hour : Nat
  minute : Nat
  second : Nat
  micro : Nat
  clean : Bool
deriving DecidableEq, Repr

/-- Whether a time ends before a text: nothing is left, or a null character comes. -/
def atEnd (s : List Char) : Bool := s.head?.all (· == '\x00')

/-- Up to six digits of a fraction, as microseconds; further digits do not count. -/
def fraction? (s : List Char) : Option (Nat × Bool) := do
  let count := min 6 s.length
  let (n, rest) ← fixedDigits? count s
  some (n * tenTo (6 - count), atEnd (rest.dropWhile Char.isDigit))

/-- What follows a pair of digits. -/
inductive Next where
  /-- Nothing more, or one stray ASCII character. -/
  | ends (clean : Bool)
  /-- The next pair of digits. -/
  | pair (rest : List Char)
  /-- A fraction. -/
  | fraction (rest : List Char)

/-- Looks past a pair of digits; `colons` says whether the first pair was followed by a colon. -/
def next? (colons : Bool) : List Char → Option Next
  | [] => some (.ends true)
  | [c] => if c.toNat < 128 then some (.ends (atEnd [c])) else none
  | c :: rest =>
    if colons && c == ':' then some (.pair rest)
    else if c == '.' || c == ',' then some (.fraction rest)
    else if colons then none
    else some (.pair (c :: rest))

/-- Hours, minutes, seconds and a fraction. After the seconds a fraction needs no mark. -/
def clock? (s : List Char) : Option Clock := do
  let (hour, rest) ← fixedDigits? 2 s
  let colons := rest.head? == some ':'
  match ← next? colons rest with
  | .ends clean => some ⟨hour, 0, 0, 0, clean⟩
  | .fraction rest => do
    let (micro, clean) ← fraction? rest
    some ⟨hour, 0, 0, micro, clean⟩
  | .pair rest => do
    let (minute, rest) ← fixedDigits? 2 rest
    match ← next? colons rest with
    | .ends clean => some ⟨hour, minute, 0, 0, clean⟩
    | .fraction rest => do
      let (micro, clean) ← fraction? rest
      some ⟨hour, minute, 0, micro, clean⟩
    | .pair rest => do
      let (second, rest) ← fixedDigits? 2 rest
      match ← next? colons rest with
      | .ends clean => some ⟨hour, minute, second, 0, clean⟩
      | .fraction rest | .pair rest => do
        let (micro, clean) ← fraction? rest
        some ⟨hour, minute, second, micro, clean⟩

/-- The seconds of a clock. -/
def Clock.seconds (c : Clock) : Int := c.hour * 3600 + c.minute * 60 + c.second

/-- The microseconds of a time of day, if it is within the day. -/
def Clock.ofDay? (c : Clock) : Option Int :=
  if c.hour ≤ 23 ∧ c.minute ≤ 59 ∧ c.second ≤ 59 then some (c.seconds * perSecond + c.micro)
  else none

/-- The offset that a clock writes, which is under a day; without whole seconds it is none at all.
-/
def Clock.offset? (negative : Bool) (c : Clock) : Option Int :=
  if !c.clean then none
  else if c.seconds = 0 then some 0
  else
    let micros := c.seconds * perSecond + c.micro
    if micros < 86400 * perSecond then some (if negative then -micros else micros) else none

/-- Whether a character begins an offset. -/
def startsOffset (c : Char) : Bool := c == '+' || c == '-'

/-- A time of day and its offset. A stray character before an offset is passed over. -/
def timeOfDay? (s : List Char) : Option (Int × Option Int) := do
  let clock ← clock? (s.takeWhile (!startsOffset ·))
  match s.dropWhile (!startsOffset ·) with
  | [] => if clock.clean then some (← clock.ofDay?, none) else none
  | sign :: rest => do
    let offset ← (← clock? rest).offset? (sign == '-')
    some (← clock.ofDay?, some offset)

-- ---------------------------------------------------------------------------
-- Dates
-- ---------------------------------------------------------------------------

/-- Passes a dash when dashes are used. -/
def dash? (dashes : Bool) : List Char → Option (List Char)
  | '-' :: rest => if dashes then some rest else some ('-' :: rest)
  | s => if dashes then none else some s

/-- The number of the day that a date writes; what is left of the text is not looked at. -/
def date? (s : List Char) : Option Nat := do
  let (year, rest) ← fixedDigits? 4 s
  let dashes := rest.head? == some '-'
  let rest := if dashes then rest.drop 1 else rest
  match rest with
  | 'W' :: rest => do
    let (week, rest) ← fixedDigits? 2 rest
    if rest.isEmpty then weekDayNumber? year week 1
    else
      let (day, _) ← fixedDigits? 1 (← dash? dashes rest)
      weekDayNumber? year week day
  | rest => do
    let (month, rest) ← fixedDigits? 2 rest
    let (day, _) ← fixedDigits? 2 (← dash? dashes rest)
    dayNumber? year month day

/-- How long the date at the start of a text is; the rest is a time after one character. A week may
be followed by a day or, after a dash or a digit, by a time: two digits after the dash are a time,
and so is what leaves an odd number of digits after the week. -/
def dateLength? (s : List Char) : Option Nat :=
  if s.length < 7 then none
  else if s.length = 7 then some 7
  else if s[4]? == some '-' then
    if s[5]? == some 'W' then
      if s[8]? == some '-' then
        if s.length = 9 then none
        else if (s[10]?).any Char.isDigit then some 8 else some 10
      else some 8
    else some 10
  else if s[4]? == some 'W' then
    let stop := 7 + ((s.drop 7).takeWhile Char.isDigit).length
    if stop < 9 then some stop else if stop % 2 = 0 then some 7 else some 8
  else some 8

/-- A date, alone or with a time after one character. -/
def readDateTime? (s : List Char) : Option Moment := do
  let length ← dateLength? s
  let day ← date? (s.take length)
  let start : Int := day * 86400 * perSecond
  match s.drop length with
  | [] => some (.dateTime start none)
  | _ :: rest => do
    let (micros, offset) ← timeOfDay? rest
    some (.dateTime (start + micros) offset)

/-- A time, with or without a `T` before it. -/
def readTime? (s : List Char) : Option Moment :=
  let s := match s with
    | 'T' :: rest => rest
    | s => s
  (timeOfDay? s).map fun (micros, offset) => .time micros offset

/-- A date with or without a time, else a time. -/
def read? (text : String) : Option Moment :=
  (readDateTime? text.toList).or (readTime? text.toList)

end SparqlSelect.Moment
