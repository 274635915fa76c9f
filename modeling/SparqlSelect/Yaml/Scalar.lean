import SparqlSelect.Json.Convert
import SparqlSelect.Json.Reader
import SparqlSelect.Moment.Reader
import SparqlSelect.Unicode.Case

/-!
# Plain scalars

What a YAML scalar without quotes stands for is seen from its form: nothing, a truth value, an
integer, a double, a date, and in all other cases its own text. Underscores between the digits of a
number are passed over. Integers are decimal, binary after `0b`, hexadecimal after `0x` or octal
after `0`. Both kinds of numbers may be written in base sixty, with colons.

* `Yaml.integer?`, `Yaml.double?` — the numbers; a number that has the form but not the digits, or
  too many of them, is a fault.
* `Yaml.date?` — whether a text has the form of a date, and whether there is such a date.
* `Yaml.plainScalar` — what a scalar without quotes stands for.
-/

namespace SparqlSelect.Yaml

-- ---------------------------------------------------------------------------
-- Digits
-- ---------------------------------------------------------------------------

/-- Whether a character is a digit of a base, which is sixteen at most. -/
def isDigitOf (base : Nat) (c : Char) : Bool := (JsonText.hexValue? c).any (· < base)

/-- Digits of a base and underscores. -/
def isNumeral (base : Nat) (s : List Char) : Bool := s.all fun c => c == '_' || isDigitOf base c

/-- The characters of a number that count. -/
def withoutUnderscores (s : List Char) : List Char := s.filter (· != '_')

/-- The number that digits of a base write. -/
def numeralValue (base : Nat) (s : List Char) : Nat :=
  (withoutUnderscores s).foldl (fun n c => n * base + (JsonText.hexValue? c).getD 0) 0

/-- A decimal numeral that starts with a digit. -/
def startsWithDigit (s : List Char) : Bool := s.head?.any Char.isDigit && isNumeral 10 s

/-- A numeral after a colon: at most 59, of one digit or two. -/
def isSixtieth : List Char → Bool
  | [d] => d.isDigit
  | [t, d] => isDigitOf 6 t && d.isDigit
  | _ => false

/-- The pieces of a text between the colons. -/
def betweenColons : List Char → List (List Char)
  | [] => [[]]
  | c :: rest =>
    if c == ':' then [] :: betweenColons rest
    else match betweenColons rest with
      | piece :: others => (c :: piece) :: others
      | [] => [[c]]

-- ---------------------------------------------------------------------------
-- Integers
-- ---------------------------------------------------------------------------

/-- The amount after the mark of a base: digits have to be there, and one at least that counts. -/
def markedAmount? (base : Nat) (digits : List Char) : Option (Except Fault Nat) :=
  if digits.isEmpty || !isNumeral base digits then none
  else if (withoutUnderscores digits).isEmpty then some (.error .badForm)
  else some (.ok (numeralValue base digits))

/-- A decimal amount, or one in base sixty; at most `maxDigits` digits stand before a colon. -/
def decimalAmount? (s : List Char) : Option (Except Fault Nat) :=
  match betweenColons s with
  | first :: sixtieths =>
    if !startsWithDigit first || !sixtieths.all isSixtieth then none
    else if maxDigits < (withoutUnderscores first).length then some (.error .badForm)
    else some (.ok (sixtieths.foldl (fun n s => n * 60 + numeralValue 10 s)
      (numeralValue 10 first)))
  | [] => none

/-- The amount that an integer without its sign writes. -/
def amount? : List Char → Option (Except Fault Nat)
  | '0' :: 'b' :: digits => markedAmount? 2 digits
  | '0' :: 'x' :: digits => markedAmount? 16 digits
  | '0' :: digits => if isNumeral 8 digits then some (.ok (numeralValue 8 digits)) else none
  | s => decimalAmount? s

/-- An integer, if a text has the form of one. -/
def integer? (s : List Char) : Option (Except Fault Int) :=
  let (negative, s) := NumberText.sign s
  (amount? s).map fun n => n.map fun n => if negative then -n else n

-- ---------------------------------------------------------------------------
-- Doubles
-- ---------------------------------------------------------------------------

/-- An exponent, with its letter and a sign; nothing at the end of the text means zero. -/
def exponent? : List Char → Option Int
  | [] => some 0
  | letter :: sign :: digits =>
    if (letter == 'e' || letter == 'E') && !digits.isEmpty && digits.all Char.isDigit then
      if sign == '-' then some (-(numeralValue 10 digits : Int))
      else if sign == '+' then some (numeralValue 10 digits)
      else none
    else none
  | _ => none

/-- The double nearest to a decimal given by the digits before and after its point. -/
def decimalDouble (whole part : List Char) (exponent : Int) : Binary64 :=
  .ofDecimal false (numeralValue 10 (whole ++ part))
    (exponent - (withoutUnderscores part).length)

/-- A sum of doubles, the first counted once, the next sixty times, and so on. Each product and each
sum is rounded; a factor has to be in the range of doubles. -/
def sumOfSixties (sum : Binary64) (factor : Nat) : List Binary64 → Except Fault Binary64
  | [] => .ok sum
  | x :: rest =>
    match Binary64.ofInt? factor with
    | some f => sumOfSixties (sum.add (x.mul f)) (factor * 60) rest
    | none => .error .tooLarge

/-- The double of numerals in base sixty, of which the last has a fraction. -/
def sixtiesDouble (numerals : List (List Char)) (part : List Char) : Except Fault Binary64 :=
  match numerals.reverse with
  | last :: others =>
    sumOfSixties .zero 1 (decimalDouble last part 0 :: others.map (decimalDouble · [] 0))
  | [] => .ok .zero

/-- A number with a point; without a digit before the point it has one after it, and no sign. -/
def pointed? (signed : Bool) (s : List Char) : Option (Except Fault Binary64) :=
  match s.dropWhile (· != '.') with
  | '.' :: rest =>
    let whole := s.takeWhile (· != '.')
    let part := rest.takeWhile fun c => c.isDigit || c == '_'
    let exponent := exponent? (rest.drop part.length)
    match betweenColons whole, exponent with
    | [[]], some e =>
      if !signed && part.head?.any Char.isDigit then some (.ok (decimalDouble [] part e)) else none
    | [digits], some e =>
      if startsWithDigit digits then some (.ok (decimalDouble digits part e)) else none
    | first :: sixtieths, _ =>
      if startsWithDigit first && sixtieths.all isSixtieth && part.length == rest.length then
        some (sixtiesDouble (first :: sixtieths) part)
      else none
    | _, _ => none
  | _ => none

/-- The names of the doubles that have no digits. -/
def unbounded? (signed : Bool) (s : List Char) : Option Binary64 :=
  let name := String.ofList s
  if [".inf", ".Inf", ".INF"].contains name then some (.infinite false)
  else if !signed && [".nan", ".NaN", ".NAN"].contains name then some .nan
  else none

/-- A double, if a text has the form of one. -/
def double? (s : List Char) : Option (Except Fault Binary64) :=
  let (negative, body) := NumberText.sign s
  let signed := body.length < s.length
  ((pointed? signed body).or ((unbounded? signed body).map .ok)).map fun x =>
    x.map fun x => if negative then x.negate else x

-- ---------------------------------------------------------------------------
-- Dates
-- ---------------------------------------------------------------------------

/-- A number of one digit or two. -/
def shortNumber? (s : List Char) : Option (Nat × List Char) :=
  (Moment.fixedDigits? 2 s).or (Moment.fixedDigits? 1 s)

/-- A number of one digit or two after a mark. -/
def shortNumberAfter? (mark : Char) : List Char → Option (Nat × List Char)
  | c :: rest => if c == mark then shortNumber? rest else none
  | [] => none

/-- A number of two digits after a colon. -/
def pairAfterColon? : List Char → Option (Nat × List Char)
  | ':' :: rest => Moment.fixedDigits? 2 rest
  | _ => none

/-- Whether an offset is less than a day; nothing is an offset too. -/
def offset? : List Char → Option Bool
  | [] | ['Z'] => some true
  | sign :: rest => do
    if sign != '+' && sign != '-' then none
    let (hours, rest) ← shortNumber? rest
    let (minutes, rest) ← if rest.isEmpty then some (0, []) else pairAfterColon? rest
    if rest.isEmpty then some (hours * 60 + minutes < 24 * 60) else none

/-- Whether a time is within the day, its offset included. -/
def time? (s : List Char) : Option Bool := do
  let (hour, rest) ← shortNumber? s
  let (minute, rest) ← pairAfterColon? rest
  let (second, rest) ← pairAfterColon? rest
  let rest := match rest with
    | '.' :: rest => rest.dropWhile Char.isDigit
    | rest => rest
  let offset ← offset? (rest.dropWhile (· == ' '))
  some (hour ≤ 23 && minute ≤ 59 && second ≤ 59 && offset)

/-- Whether there is such a date, if a text has the form of one: a day alone has two digits for the
month and for the day; before a time one is enough. -/
def date? (s : List Char) : Option Bool := do
  let (year, rest) ← Moment.fixedDigits? 4 s
  let (month, rest) ← shortNumberAfter? '-' rest
  let (day, rest) ← shortNumberAfter? '-' rest
  let isDay := (dayNumber? year month day).isSome
  match rest with
  | [] => if s.length = 10 then some isDay else none
  | c :: rest => do
    let time ← if c == 'T' || c == 't' then time? rest
      else if c == ' ' then time? (rest.dropWhile (· == ' '))
      else none
    some (isDay && time)

-- ---------------------------------------------------------------------------
-- Values
-- ---------------------------------------------------------------------------

/-- The words that are truth values, in small letters. -/
def truthWords : List (String × Bool) :=
  [("yes", true), ("true", true), ("on", true), ("no", false), ("false", false), ("off", false)]

/-- A word is written in small letters, in capitals, or with a capital first. -/
def spelledAs (word : String) (s : String) : Bool :=
  s == word || s == upperCase word || s == upperFirst word

/-- What a scalar stands for: a value that JSON has too, or a date. Which date it is makes no
difference to a settings file. -/
inductive Scalar where
  | json (value : Json)
  | date

/-- Whether two scalars are the same name of a member. -/
def Scalar.equal : Scalar → Scalar → Bool
  | .json a, .json b => a.equal b
  | _, _ => false

/-- The value of a scalar where a value of JSON is wanted. -/
def Scalar.toJson : Scalar → Except Fault Json
  | .json value => .ok value
  | .date => .error .wrongType

/-- What a plain scalar stands for. Two signs have a meaning only as the name of a member. -/
def plainScalar (s : String) : Except Fault Scalar :=
  if s == "" || s == "~" || spelledAs "null" s then .ok (.json .null)
  else if s == "=" || s == "<<" then .error .badForm
  else match truthWords.find? fun (word, _) => spelledAs word s with
    | some (_, b) => .ok (.json (.bool b))
    | none =>
      match integer? s.toList, double? s.toList, date? s.toList with
      | some n, _, _ => n.map (.json <| .int ·)
      | none, some x, _ => x.map (.json <| .float ·)
      | none, none, some real => if real then .ok .date else .error .badForm
      | none, none, none => .ok (.json (.str s))

end SparqlSelect.Yaml
