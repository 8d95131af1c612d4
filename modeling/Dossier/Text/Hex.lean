/-!
# Hexadecimal digits

Fixed-width numbers as hexadecimal digits, most significant first.

* `digit`, `digit?`: one digit; both cases are read, lower case is written;
* **`encode`**: the last `width` digits of a number;
* **`decode?`**: the number that a run of digits stands for;
* `ofBytes`, `bytes?`: two digits for every byte.
-/

namespace Dossier.Hex

/-- The lower-case digit of a number below sixteen. -/
def digit (n : Nat) : Char :=
  if n < 10 then Char.ofNat ('0'.toNat + n) else Char.ofNat ('a'.toNat + (n - 10))

/-- The number that a digit of either case stands for. -/
def digit? (c : Char) : Option Nat :=
  if '0' ≤ c ∧ c ≤ '9' then some (c.toNat - '0'.toNat)
  else if 'a' ≤ c ∧ c ≤ 'f' then some (c.toNat - 'a'.toNat + 10)
  else if 'A' ≤ c ∧ c ≤ 'F' then some (c.toNat - 'A'.toNat + 10)
  else none

/-- The last `width` digits of `n`. -/
def encode : Nat → Nat → List Char
  | 0, _ => []
  | width + 1, n => encode width (n / 16) ++ [digit (n % 16)]

/-- Reads digits after those that stand for `acc`. -/
def decodeFrom (acc : Nat) : List Char → Option Nat
  | [] => some acc
  | c :: rest => (digit? c).bind fun d => decodeFrom (acc * 16 + d) rest

/-- The number that the digits stand for, if all are digits. -/
def decode? (digits : List Char) : Option Nat := decodeFrom 0 digits

/-- The number that exactly `width` digits stand for. -/
def decodeExact? (width : Nat) (digits : List Char) : Option Nat :=
  if digits.length = width then decode? digits else none

/-- The shortest digits of `n`. -/
def shortest (n : Nat) : String := String.ofList (Nat.toDigits 16 n)

/-- Two digits for every byte. -/
def ofBytes (bytes : List UInt8) : String :=
  String.ofList (bytes.flatMap fun byte => encode 2 byte.toNat)

/-- The bytes that pairs of digits stand for. -/
def bytes? : List Char → Option (List UInt8)
  | [] => some []
  | a :: b :: rest => do
    let high ← digit? a
    let low ← digit? b
    return UInt8.ofNat (16 * high + low) :: (← bytes? rest)
  | _ => none

@[simp] theorem length_encode (width n : Nat) : (encode width n).length = width := by
  induction width generalizing n with
  | zero => rfl
  | succ width ih => simp [encode, ih]

end Dossier.Hex
