/-!
# Base64

Bytes as groups of four characters, each of which stands for six bits. The last group may stand for
one or two bytes and is then filled up with `=`.

* `Base64.digit?`: the number that a character of the alphabet stands for;
* **`Base64.decode?`**: the bytes of a text. The filling has to be complete, and bits that belong to
  no byte have to be zero, so every list of bytes has one text.
-/

namespace Dossier.Base64

/-- The number that a character of the alphabet stands for. -/
def digit? (c : Char) : Option Nat :=
  if 'A' ≤ c ∧ c ≤ 'Z' then some (c.toNat - 'A'.toNat)
  else if 'a' ≤ c ∧ c ≤ 'z' then some (c.toNat - 'a'.toNat + 26)
  else if '0' ≤ c ∧ c ≤ '9' then some (c.toNat - '0'.toNat + 52)
  else if c = '+' then some 62
  else if c = '/' then some 63
  else none

/-- The bytes of a group of four characters. -/
def group? (a b c d : Char) : Option (List UInt8) := do
  let n := 262144 * (← digit? a) + 4096 * (← digit? b) + 64 * (← digit? c) + (← digit? d)
  return [UInt8.ofNat (n / 65536), UInt8.ofNat (n / 256), UInt8.ofNat n]

/-- The bytes of a filled group, whose last bits are zero. -/
def filled? : Char → Char → Char → Option (List UInt8)
  | a, b, '=' => do
    let n := 64 * (← digit? a) + (← digit? b)
    if n % 16 = 0 then return [UInt8.ofNat (n / 16)] else failure
  | a, b, c => do
    let n := 4096 * (← digit? a) + 64 * (← digit? b) + (← digit? c)
    if n % 4 = 0 then return [UInt8.ofNat (n / 1024), UInt8.ofNat (n / 4)] else failure

/-- The bytes that a text stands for. -/
def decode? : List Char → Option (List UInt8)
  | [] => some []
  | [a, b, c, '='] => filled? a b c
  | a :: b :: c :: d :: rest => do return (← group? a b c d) ++ (← decode? rest)
  | _ => none

end Dossier.Base64
