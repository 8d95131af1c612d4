import Dossier.Text.Numeral

/-!
# Numerals of doubles

* `Double.nearest`: the double nearest to digits at a power of ten, a tie going to the even one;
* **`Double.ofText?`**: the double that a text stands for: a sign, and then `nan`, `inf`, `infinity`,
  or digits with at most one point among them and an exponent, in either case.
-/

namespace Dossier.Double

/-- The double nearest to `n` times a power of ten. A number whose first digit stands far outside the
range of doubles is not computed. -/
def nearest (n : Nat) (exponent : Int) : Float :=
  let leading := (Nat.toDigits 10 n).length + exponent
  if n = 0 ∨ leading < -400 then Float.ofBits 0
  else if 400 < leading then Float.ofBits 0x7ff0000000000000
  else Float.ofScientific n (exponent < 0) exponent.natAbs

/-- An exponent after its mark, or none. -/
def exponent? : List Char → Option Int
  | [] => some 0
  | 'e' :: cs => Numeral.signed? cs
  | _ => none

/-- The double that digits with a point and an exponent stand for; one of the parts around the point
may be empty. -/
def unsigned? (cs : List Char) : Option Float :=
  let whole := cs.takeWhile Char.isDigit
  let (fraction, rest) := match cs.dropWhile Char.isDigit with
    | '.' :: cs => (cs.takeWhile Char.isDigit, cs.dropWhile Char.isDigit)
    | cs => ([], cs)
  do
    let n ← Numeral.digits? (whole ++ fraction)
    return nearest n ((← exponent? rest) - fraction.length)

/-- The double that a text without a sign stands for. -/
def magnitude? (cs : List Char) : Option Float :=
  if cs = "nan".toList then some (Float.ofBits 0x7ff8000000000000)
  else if cs = "inf".toList ∨ cs = "infinity".toList then some (Float.ofBits 0x7ff0000000000000)
  else unsigned? cs

/-- The double that a text stands for. -/
def ofText? (text : String) : Option Float :=
  let (negative, cs) := Numeral.unsigned text.toList
  (magnitude? (cs.map Char.toLower)).map fun x => if negative then -x else x

end Dossier.Double
