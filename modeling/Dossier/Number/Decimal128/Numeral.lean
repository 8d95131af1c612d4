import Dossier.Number.Decimal128
import Dossier.Number.Width
import Dossier.Text.Numeral

/-!
# Numerals of 128-bit decimals

* `Decimal128.fit?`: digits at a power of ten, brought into the range of coefficients and exponents
  without a change of the number;
* **`Decimal128.ofText?`**: the number that a text stands for: a sign, and then `nan`, `snan`, `inf`,
  `infinity`, or digits with at most one point among them and an exponent, in either case. A number
  that would have to be rounded is refused, and so is one beyond the range.
-/

namespace Dossier

namespace Decimal128

/-- The first `count` digits, if only zeros follow. -/
def keep? (count : Nat) (digits : List Char) : Option (List Char) :=
  if (digits.drop count).all (· == '0') then some (digits.take count) else none

/-- Digits at a power of ten, no more of them than a coefficient has. -/
def shorten? (digits : List Char) (exponent : Int) : Option (List Char × Int) :=
  (keep? maxDigits digits).map fun kept => (kept, exponent + (digits.length - kept.length : Nat))

/-- Digits at no power of ten below the least. -/
def raise? (digits : List Char) (exponent : Int) : Option (List Char × Int) :=
  let missing := (minExponent - exponent).toNat
  if digits = ['0'] then some (digits, max exponent minExponent)
  else if missing ≤ digits.length then
    (keep? (digits.length - missing) digits).map fun kept => (kept, max exponent minExponent)
  else none

/-- Digits at no power of ten above the greatest. -/
def lower? (digits : List Char) (exponent : Int) : Option (List Char × Int) :=
  let surplus := (exponent - maxExponent).toNat
  if digits = ['0'] ∨ surplus = 0 then some (digits, min exponent maxExponent)
  else if digits.length + surplus ≤ maxDigits then
    some (digits ++ List.replicate surplus '0', maxExponent)
  else none

/-- Digits at a power of ten within the range. -/
def fit? (digits : List Char) (exponent : Int) : Option (List Char × Int) := do
  let (digits, exponent) ← shorten? digits exponent
  let (digits, exponent) ← raise? digits exponent
  lower? digits exponent

/-- An exponent, which fits 32 bits. -/
def exponent? (n : Int) : Option Int := (Width.int32? n).map Int32.toInt

/-- Digits without leading zeros, of which the last one stays. -/
def withoutLeading (digits : List Char) : List Char :=
  let rest := digits.dropWhile (· == '0')
  if rest.isEmpty ∧ !digits.isEmpty then ['0'] else rest

/-- The finite number that digits with a point and an exponent stand for. -/
def finite? (negative : Bool) (cs : List Char) : Option Decimal128 := do
  let mantissa := cs.takeWhile (· ≠ 'e')
  let exponent ← match cs.dropWhile (· ≠ 'e') with
    | _ :: exponent => (Numeral.signed? exponent).bind exponent?
    | [] => some 0
  let whole := mantissa.takeWhile (· ≠ '.')
  let fraction := (mantissa.dropWhile (· ≠ '.')).drop 1
  let exponent ← exponent? (exponent - fraction.length)
  let (digits, exponent) ← fit? (withoutLeading (whole ++ fraction)) exponent
  return finite negative (← Numeral.digits? digits) exponent

/-- The number that a text stands for. -/
def ofText? (text : String) : Option Decimal128 :=
  let (negative, cs) := Numeral.unsigned text.toList
  let cs := cs.map Char.toLower
  if cs = "nan".toList then some (nan negative false)
  else if cs = "snan".toList then some (nan negative true)
  else if cs = "inf".toList ∨ cs = "infinity".toList then some (infinity negative)
  else finite? negative cs

end Decimal128

end Dossier
