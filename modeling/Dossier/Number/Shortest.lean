import Dossier.Number.Double

/-!
# Shortest decimal texts of doubles

Of the decimals that read back as a double, the one with the fewest digits is written, and of those
the nearest.

* `Magnitude`: a positive double as `significand * 2 ^ exponent`, and the reals that round to it;
* **`Magnitude.shortest`**: its digits and their power of ten;
* **`Double.text`**: positional from `1e-4` to below `1e16`, with an exponent outside.
-/

namespace Dossier

/-- A fraction of natural numbers. -/
structure Ratio where
  numerator : Nat
  denominator : Nat

namespace Ratio

/-- `n * 2 ^ exponent`. -/
def ofBinary (n : Nat) (exponent : Int) : Ratio :=
  if 0 ≤ exponent then ⟨n * Nat.pow 2 exponent.toNat, 1⟩ else ⟨n, Nat.pow 2 (-exponent).toNat⟩

/-- `n * 10 ^ exponent`. -/
def ofDecimal (n : Nat) (exponent : Int) : Ratio :=
  if 0 ≤ exponent then ⟨n * Nat.pow 10 exponent.toNat, 1⟩ else ⟨n, Nat.pow 10 (-exponent).toNat⟩

/-- Whether `a` is less than `b`. -/
def lt (a b : Ratio) : Bool := a.numerator * b.denominator < b.numerator * a.denominator

/-- How often `b` fits into `a`. -/
def quotient (a b : Ratio) : Nat :=
  a.numerator * b.denominator / (b.numerator * a.denominator)

/-- The distance of two fractions. -/
def distance (a b : Ratio) : Ratio :=
  let x := a.numerator * b.denominator
  let y := b.numerator * a.denominator
  ⟨(x - y) + (y - x), a.denominator * b.denominator⟩

end Ratio

/-- A positive double, `significand * 2 ^ exponent`. -/
structure Magnitude where
  significand : Nat
  exponent : Int
  /-- Whether the next double below is only half as far away as the next above. -/
  closeBelow : Bool

namespace Magnitude

/-- The magnitude of a finite double by its rank, the bits without the sign. -/
def ofRank (rank : Nat) : Magnitude :=
  let field : Nat := rank / 0x10000000000000
  let fraction : Nat := rank % 0x10000000000000
  if field = 0 then ⟨fraction, -1074, false⟩
  else ⟨0x10000000000000 + fraction, (field : Int) - 1075, fraction = 0 ∧ 1 < field⟩

/-- The number itself. -/
def value (m : Magnitude) : Ratio := .ofBinary m.significand m.exponent

/-- The least real that may round to the number. -/
def low (m : Magnitude) : Ratio :=
  .ofBinary (4 * m.significand - if m.closeBelow then 1 else 2) (m.exponent - 2)

/-- The greatest real that may round to the number. -/
def high (m : Magnitude) : Ratio := .ofBinary (4 * m.significand + 2) (m.exponent - 2)

/-- Whether a decimal reads back as the number; the ends of the interval do for even significands. -/
def readsBack (m : Magnitude) (decimal : Ratio) : Bool :=
  if m.significand % 2 = 0 then !decimal.lt m.low && !m.high.lt decimal
  else m.low.lt decimal && decimal.lt m.high

/-- The position of the decimal point, relative to the first digit: the least power of ten above the
number. -/
def point (m : Magnitude) : Int :=
  let v := m.value
  let whole := v.numerator / v.denominator
  if 0 < whole then (Nat.toDigits 10 whole).length
  else
    let zeros := (List.range 400).find? (fun k => v.denominator ≤ v.numerator * Nat.pow 10 (k + 1))
    Int.neg (zeros.getD 0)

/-- The nearer of the two neighbours on the grid of `10 ^ exponent` that read back; a tie goes up. -/
def onGrid? (m : Magnitude) (exponent : Int) : Option Nat :=
  let below := m.value.quotient (.ofDecimal 1 exponent)
  let lower := Ratio.ofDecimal below exponent
  let upper := Ratio.ofDecimal (below + 1) exponent
  match m.readsBack lower, m.readsBack upper with
  | true, true =>
    if (lower.distance m.value).lt (upper.distance m.value) then some below else some (below + 1)
  | true, false => some below
  | false, true => some (below + 1)
  | false, false => none

/-- A number without its last digit when that is zero. -/
def dropZero (n : Nat) (exponent : Int) : Nat × Int :=
  if n % 10 = 0 then (n / 10, exponent + 1) else (n, exponent)

/-- The digits of the shortest decimal, and the power of ten of the last one. The neighbour above may
be a power of ten with one digit more than the grid has. -/
def shortest (m : Magnitude) : Nat × Int :=
  let found := (List.range 17).findSome? fun (n : Nat) =>
    let exponent := m.point - (n + 1 : Nat)
    (m.onGrid? exponent).map (dropZero · exponent)
  found.getD (m.significand, 0)

end Magnitude

namespace Double

/-- `count` zeros. -/
def zeros (count : Int) : String := String.ofList (List.replicate count.toNat '0')

/-- Digits with a decimal point `point` places after the first one's place. -/
def positional (digits : String) (point : Int) : String :=
  let width : Int := digits.length
  if point ≤ 0 then "0." ++ zeros (-point) ++ digits
  else if width ≤ point then digits ++ zeros (point - width) ++ ".0"
  else (digits.take point.toNat).toString ++ "." ++ (digits.drop point.toNat).toString

/-- One digit, the others after a decimal point, and an exponent. -/
def exponential (digits : String) (point : Int) : String :=
  let fraction := (digits.drop 1).toString
  (digits.take 1).toString ++ (if fraction.isEmpty then "" else "." ++ fraction) ++ "e" ++
    toString (point - 1)

/-- The text of a positive double by its rank. -/
def magnitudeText (rank : Nat) : String :=
  let (n, exponent) := (Magnitude.ofRank rank).shortest
  let digits := toString n
  let point := digits.length + exponent
  if -4 < point ∧ point ≤ 16 then positional digits point else exponential digits point

/-- The shortest text of a double. -/
def text (x : Float) : String :=
  let sign := if x.toBits.toNat < 0x8000000000000000 then "" else "-"
  match rank? x with
  | none => "NaN"
  | some rank =>
    if rank = 0 then sign ++ "0.0"
    else if rank.natAbs = 0x7ff0000000000000 then sign ++ "inf"
    else sign ++ magnitudeText rank.natAbs

end Double

end Dossier
