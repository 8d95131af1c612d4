/-!
# Doubles and integers on one line

Integers and binary64 doubles are compared as doubles: an integer first becomes the nearest double,
a tie going to the even neighbour. Both are placed on one line by a **rank**, the sign-magnitude
reading of the double's bits, in which a greater rank is a greater number and both zeros have rank
`0`. NaN has no rank.

* `bitsOfNat`: the bits of the double nearest to a natural number;
* **`ofInt`**: the double nearest to an integer, and `rankOfInt` its rank;
* **`rank?`**: the rank of a double;
* `equal`: numeric equality, by rank.
-/

namespace Dossier.Double

/-- `n / 2 ^ shift` rounded to the nearest integer, a tie to the even one. -/
def shiftRound (n shift : Nat) : Nat :=
  let unit := Nat.pow 2 shift
  let quotient := n / unit
  let twice := 2 * (n % unit)
  if twice > unit ∨ (twice = unit ∧ quotient % 2 = 1) then quotient + 1 else quotient

/-- The bits of the double nearest to `n`, for `n` below `2 ^ 1023`. A significand that rounds up to
`2 ^ 53` carries into the exponent. -/
def bitsOfNat (n : Nat) : Nat :=
  if n = 0 then 0
  else
    let exponent := n.log2
    let significand :=
      if exponent ≤ 52 then n * Nat.pow 2 (52 - exponent) else shiftRound n (exponent - 52)
    (exponent + 1022) * 0x10000000000000 + significand

/-- The rank of the double nearest to `n`. -/
def rankOfInt (n : Int) : Int :=
  if n < 0 then -(bitsOfNat n.natAbs : Int) else bitsOfNat n.natAbs

/-- The double nearest to `n`. -/
def ofInt (n : Int) : Float :=
  Float.ofBits (UInt64.ofNat (bitsOfNat n.natAbs + if n < 0 then 0x8000000000000000 else 0))

/-- The rank of a double; NaN has none. -/
def rank? (x : Float) : Option Int :=
  let bits : Nat := x.toBits.toNat
  let magnitude : Nat := bits % 0x8000000000000000
  if 0x7ff0000000000000 < magnitude then none
  else if bits < 0x8000000000000000 then some (magnitude : Int)
  else some (-(magnitude : Int))

/-- Numeric equality: both zeros are equal, and NaN equals nothing. -/
def equal (x y : Float) : Bool :=
  match rank? x, rank? y with
  | some a, some b => a == b
  | _, _ => false

/-- Whether `x` is NaN. -/
def isNaN (x : Float) : Bool := (rank? x).isNone

end Dossier.Double
