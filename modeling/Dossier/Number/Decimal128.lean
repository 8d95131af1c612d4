/-!
# Decimal numbers of 128 bits

The sixteen bytes are stored with the least significant one first; `ofBits` reads them as one
number. A finite number is a coefficient of at most thirty-four digits times a power of ten. A
coefficient beyond that counts as zero.

* **`Decimal128`**, `Decimal128.ofBits`, `Decimal128.toBits`: the parts of the format;
* **`Decimal128.canonical`**: the one pattern that is written for all patterns of the same number.
-/

namespace Dossier

/-- The parts of a 128-bit decimal. -/
inductive Decimal128 where
  | nan (negative signaling : Bool)
  | infinity (negative : Bool)
  | finite (negative : Bool) (coefficient : Nat) (exponent : Int)
  deriving DecidableEq, Repr

namespace Decimal128

/-- The greatest number of digits of a coefficient. -/
def maxDigits : Nat := 34

/-- The least exponent. -/
def minExponent : Int := -6176

/-- The greatest exponent. -/
def maxExponent : Int := 6111

/-- The bytes of a number, most significant first, in the opposite order. -/
def swapBytes : Nat → Nat → Nat → Nat
  | 0, _, acc => acc
  | count + 1, n, acc => swapBytes count (n / 256) (acc * 256 + n % 256)

/-- The parts of sixteen bytes, read with the most significant byte first. -/
def ofBits (bits : BitVec 128) : Decimal128 :=
  let n : Nat := swapBytes 16 bits.toNat 0
  let negative : Bool := n >>> 127 = 1
  let top : Nat := n >>> 122 % 32
  if top = 31 then nan negative (n >>> 121 % 2 = 1)
  else if top = 30 then infinity negative
  else if 24 ≤ top then finite negative 0 ((n >>> 111 % 0x4000 : Nat) + minExponent)
  else
    let coefficient := n % Nat.pow 2 113
    finite negative (if coefficient < Nat.pow 10 maxDigits then coefficient else 0)
      ((n >>> 113 % 0x4000 : Nat) + minExponent)

/-- The sixteen bytes of a number, most significant first. -/
def magnitudeBits : Decimal128 → Nat
  | nan _ signaling => 31 <<< 122 + if signaling then 1 <<< 121 else 0
  | infinity _ => 30 <<< 122
  | finite _ coefficient exponent => (exponent - minExponent).toNat <<< 113 + coefficient

/-- Whether the sign is a minus. -/
def negative : Decimal128 → Bool
  | nan negative _ | infinity negative | finite negative _ _ => negative

/-- The sixteen bytes of a number. -/
def toBits (d : Decimal128) : BitVec 128 :=
  BitVec.ofNat 128 (swapBytes 16 (d.magnitudeBits + if d.negative then 1 <<< 127 else 0) 0)

/-- The number without the sign of NaN and without the mark of a signaling NaN. -/
def quiet : Decimal128 → Decimal128
  | nan _ _ => nan false false
  | d => d

/-- The pattern that is written for all patterns of the same number. -/
def canonical (bits : BitVec 128) : BitVec 128 := (ofBits bits).quiet.toBits

end Decimal128

end Dossier
