/-!
# Calendar dates

Milliseconds since the start of 1970 as a date and a time of day in the Gregorian calendar.

* `Calendar.civil`: year, month and day of a day number;
* **`Calendar.text?`**: the text of an instant within the years -999999 to 999999. A year has at least
  four digits, and a sign if it is negative or has more.
-/

namespace Dossier.Calendar

/-- The year, month and day of a day, counted from the start of 1970. Years are counted from March,
in eras of four hundred. -/
def civil (day : Int) : Int × Nat × Nat :=
  let shifted := day + 719468
  let era := shifted.fdiv 146097
  let ofEra := (shifted.fmod 146097).toNat
  let yearOfEra := (ofEra - ofEra / 1460 + ofEra / 36524 - ofEra / 146096) / 365
  let ofYear := ofEra - (365 * yearOfEra + yearOfEra / 4 - yearOfEra / 100)
  let marchMonth := (5 * ofYear + 2) / 153
  let month := if marchMonth < 10 then marchMonth + 3 else marchMonth - 9
  let year := era * 400 + (yearOfEra : Int) + if month ≤ 2 then 1 else 0
  (year, month, ofYear - (153 * marchMonth + 2) / 5 + 1)

/-- At least `width` digits. -/
def padded (width n : Nat) : String :=
  let digits := Nat.toDigits 10 n
  String.ofList (List.replicate (width - digits.length) '0' ++ digits)

/-- Milliseconds as a fraction of a second, without trailing zeros but with one digit at least. -/
def fraction (millis : Nat) : String :=
  if millis % 100 = 0 then padded 1 (millis / 100)
  else if millis % 10 = 0 then padded 2 (millis / 10)
  else padded 3 millis

/-- The text of a year. -/
def yearText (year : Int) : String :=
  (if year < 0 then "-" else if 9999 < year then "+" else "") ++ padded 4 year.natAbs

/-- The text of an instant. -/
def text? (millis : Int) : Option String :=
  let (year, month, day) := civil (millis.fdiv 86400000)
  let ofDay := (millis.fmod 86400000).toNat
  if year.natAbs ≤ 999999 then
    some (yearText year ++ "-" ++ padded 2 month ++ "-" ++ padded 2 day ++ " " ++
      toString (ofDay / 3600000) ++ ":" ++ padded 2 (ofDay / 60000 % 60) ++ ":" ++
      padded 2 (ofDay / 1000 % 60) ++ "." ++ fraction (ofDay % 1000) ++ " +00:00:00")
  else none

end Dossier.Calendar
