/-!
# Sets of code points

* **`CodePoints.mem`**: membership in a set that is written as closed ranges.
-/

namespace Dossier.CodePoints

/-- Whether a character is in one of the closed ranges. -/
def mem (ranges : List (Nat × Nat)) (c : Char) : Bool :=
  ranges.any fun range => range.1 ≤ c.toNat && c.toNat ≤ range.2

end Dossier.CodePoints
