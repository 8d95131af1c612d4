/-!
# Numbers as bytes

* **`Bytes.toNat`**: the number that bytes stand for, the most significant one first;
* `Bytes.ofNat`: the last bytes of a number.
-/

namespace Dossier.Bytes

/-- The number that bytes stand for, the most significant one first. -/
def toNat (bytes : List UInt8) : Nat := bytes.foldl (fun n byte => n * 256 + byte.toNat) 0

/-- The last `count` bytes of `n`. -/
def ofNat : Nat → Nat → List UInt8
  | 0, _ => []
  | count + 1, n => ofNat count (n / 256) ++ [UInt8.ofNat n]

end Dossier.Bytes
