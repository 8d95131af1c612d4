/-!
# Integers of a given width

* `int32?`, `int64?`: an integer as a word, if it fits;
* `uint8?`, `uint32?`: an integer as a word without sign, if it fits.
-/

namespace Dossier.Width

/-- An integer that fits 32 bits. -/
def int32? (n : Int) : Option Int32 :=
  if -0x80000000 ≤ n ∧ n < 0x80000000 then some (Int32.ofInt n) else none

/-- An integer that fits 64 bits. -/
def int64? (n : Int) : Option Int64 :=
  if -0x8000000000000000 ≤ n ∧ n < 0x8000000000000000 then some (Int64.ofInt n) else none

/-- An integer that fits 8 bits without sign. -/
def uint8? (n : Int) : Option UInt8 :=
  if 0 ≤ n ∧ n < 0x100 then some (UInt8.ofNat n.toNat) else none

/-- An integer that fits 32 bits without sign. -/
def uint32? (n : Int) : Option UInt32 :=
  if 0 ≤ n ∧ n < 0x100000000 then some (UInt32.ofNat n.toNat) else none

theorem toInt_of_int64? {n : Int} {w : Int64} (h : int64? n = some w) : w.toInt = n := by
  unfold int64? at h
  split at h
  · cases h
    exact Int64.toInt_ofInt_of_le (by omega) (by omega)
  · contradiction

theorem int64?_toInt (w : Int64) : int64? w.toInt = some w := by
  have h₁ := Int64.le_toInt w
  have h₂ := Int64.toInt_lt w
  rw [int64?, if_pos (by omega), Int64.ofInt_toInt]

end Dossier.Width
