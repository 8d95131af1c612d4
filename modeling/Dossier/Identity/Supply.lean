import Dossier.Identity

/-!
# A supply of fresh identities

New identities come from a counter. Object ids are the counter itself, so the first `2 ^ 96` of
them differ; integers keep its last 31 bits; UUIDs spread its last 122 bits around the version and
variant fields.

* **`Supply`**, `Supply.objectId`, `Supply.identity`.
-/

namespace Dossier

/-- The number from which the next identity is made. -/
structure Supply where
  next : Nat
  deriving Repr

namespace Supply

/-- A random UUID's layout: version 4 and the standard variant. -/
def uuidOf (n : Nat) : Uuid :=
  ⟨BitVec.ofNat 48 (n >>> 74) ++ 4#4 ++ BitVec.ofNat 12 (n >>> 62) ++ 2#2 ++ BitVec.ofNat 62 n⟩

/-- The supply after one identity was taken. -/
def advance (supply : Supply) : Supply := ⟨supply.next + 1⟩

/-- The next object id. -/
def objectId (supply : Supply) : ObjectId := ⟨BitVec.ofNat 96 supply.next⟩

/-- The next identity of a scheme. -/
def identity (supply : Supply) : Identity.Scheme → Identity
  | .object => .object supply.objectId
  | .integer => .integer (Int64.ofNat (supply.next % 0x80000000))
  | .uuid => .uuid (uuidOf supply.next)

end Supply

end Dossier
