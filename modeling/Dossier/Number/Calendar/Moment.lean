import Dossier.Number.Calendar
import Dossier.Text.Numeral

/-!
# Moments in text

A moment is written as a date, a time of day and the distance of local time from universal time, such
as `2001-02-03T04:05:06.789+01:30`.

* **`Moment`**, `Moment.ofText?`: the parts of a text; between date and time any ASCII character may
  stand;
* `Calendar.dayNumber`: the days from the start of 1970 to a date;
* **`Moment.millis?`**: the millisecond of a moment, if its date and time exist. A leap second is the
  last billionth of the second before it, and has to end a month of universal time.
-/

namespace Dossier

namespace Calendar

/-- The number of a day, counted from the start of 1970. Years are counted from March, in eras of
four hundred. -/
def dayNumber (year : Int) (month day : Nat) : Int :=
  let year := if month ≤ 2 then year - 1 else year
  let yearOfEra := year.fmod 400
  let ofYear : Int := ((153 * ((month + 9) % 12) + 2) / 5 + day : Nat) - 1
  year.fdiv 400 * 146097 + yearOfEra * 365 + yearOfEra / 4 - yearOfEra / 100 + ofYear - 719468

/-- The number of days of a month. -/
def daysInMonth (year : Int) (month : Nat) : Nat :=
  if month = 2 then
    if year % 4 = 0 ∧ (year % 100 ≠ 0 ∨ year % 400 = 0) then 29 else 28
  else if month = 4 ∨ month = 6 ∨ month = 9 ∨ month = 11 then 30
  else 31

end Calendar

/-- A date, a time of day and the minutes by which local time is ahead of universal time. -/
structure Moment where
  year : Nat
  month : Nat
  day : Nat
  hour : Nat
  minute : Nat
  second : Nat
  nanos : Nat
  offset : Int
  deriving Repr

namespace Moment

/-! ## Parts of a text -/

/-- A number of a given width, and the rest. -/
def number? (width : Nat) (cs : List Char) : Option (Nat × List Char) :=
  if width ≤ cs.length then (Numeral.digits? (cs.take width)).map (·, cs.drop width) else none

/-- The rest after a given character. -/
def after? (mark : Char) : List Char → Option (List Char)
  | c :: cs => if c = mark then some cs else none
  | [] => none

/-- The rest after one ASCII character. -/
def separated? : List Char → Option (List Char)
  | c :: cs => if c.toNat < 128 then some cs else none
  | [] => none

/-- The billionths of a second after an optional point, and the rest; further digits are ignored. -/
def fraction? : List Char → Option (Nat × List Char)
  | '.' :: cs =>
    let digits := (cs.takeWhile Char.isDigit).take 9
    (Numeral.digits? digits).map fun n =>
      (n * Nat.pow 10 (9 - digits.length), cs.dropWhile Char.isDigit)
  | cs => some (0, cs)

/-- The distance from universal time at the end of a text, in minutes. -/
def offset? : List Char → Option Int
  | ['Z'] => some 0
  | ['z'] => some 0
  | sign :: cs => do
    if sign ≠ '+' ∧ sign ≠ '-' then failure
    let (hours, cs) ← number? 2 cs
    let (minutes, cs) ← number? 2 (← after? ':' cs)
    if !cs.isEmpty ∨ 23 < hours ∨ 59 < minutes then failure
    let distance : Int := (60 * hours + minutes : Nat)
    return if sign = '-' then -distance else distance
  | [] => none

/-- The parts of a text. -/
def ofText? (text : String) : Option Moment := do
  let (year, cs) ← number? 4 text.toList
  let (month, cs) ← number? 2 (← after? '-' cs)
  let (day, cs) ← number? 2 (← after? '-' cs)
  let (hour, cs) ← number? 2 (← separated? cs)
  let (minute, cs) ← number? 2 (← after? ':' cs)
  let (second, cs) ← number? 2 (← after? ':' cs)
  let (nanos, cs) ← fraction? cs
  return { year, month, day, hour, minute, second, nanos, offset := ← offset? cs }

/-! ## The moment -/

/-- Whether the date and the time of day exist. -/
def isReal (m : Moment) : Bool :=
  1 ≤ m.month && m.month ≤ 12 && 1 ≤ m.day && m.day ≤ Calendar.daysInMonth m.year m.month &&
    m.hour ≤ 23 && m.minute ≤ 59 && m.second ≤ 59

/-- The second since 1970 in universal time. -/
def seconds (m : Moment) : Int :=
  Calendar.dayNumber m.year m.month m.day * 86400 + (m.hour * 3600 + m.minute * 60 + m.second : Nat) -
    m.offset * 60

/-- Whether a moment lies in the last second of a month of universal time. -/
def endsMonth (m : Moment) : Bool :=
  let day := m.seconds.fdiv 86400
  m.seconds.fmod 86400 = 86399 && (Calendar.civil (day + 1)).2.2 = 1

/-- The millisecond since 1970 of a moment, towards 1970. -/
def millis? (m : Moment) : Option Int :=
  let leap := m.second = 60
  let m := if leap then { m with second := 59, nanos := 999999999 } else m
  if m.isReal && (!leap || m.endsMonth) then
    some ((m.seconds * 1000000000 + m.nanos).tdiv 1000000)
  else none

end Moment

end Dossier
