import Dossier.Value.Equality

/-!
# Equality and order of values in filters

A filter compares numbers across kinds and orders values only within a kind.

* `Scalar`, `Value.scalar?`: the ordered kinds, numbers by rank;
* **`Value.alike`**: filter equality. Documents are alike without regard to the order of keys, and
  values of the remaining kinds only when they are the same;
* **`Value.compare?`**: filter order, undefined between kinds, for NaN, and outside the ordered
  kinds.
-/

namespace Dossier

/-- A value of an ordered kind. -/
inductive Scalar where
  | bool (b : Bool)
  /-- A number by its rank; NaN has none. -/
  | number (rank : Option Int)
  | dateTime (millis : Int64)
  | objectId (id : ObjectId)
  | string (text : String)
  | timestamp (seconds increment : UInt32)

namespace Scalar

/-- Equality of scalars; NaN equals nothing. -/
def equal : Scalar → Scalar → Bool
  | bool a, bool b => a == b
  | number (some a), number (some b) => a == b
  | dateTime a, dateTime b => a == b
  | objectId a, objectId b => a == b
  | string a, string b => a == b
  | timestamp a i, timestamp b j => a == b && i == j
  | _, _ => false

/-- Order of scalars of one kind: `false` before `true`, object ids by their bytes, texts by code
points, timestamps by seconds and then increment. -/
def compare? : Scalar → Scalar → Option Ordering
  | bool a, bool b => some (compare a.toNat b.toNat)
  | number (some a), number (some b) => some (compare a b)
  | dateTime a, dateTime b => some (compare a.toInt b.toInt)
  | objectId a, objectId b => some (compare a.toBitVec.toNat b.toBitVec.toNat)
  | string a, string b => some (compare a b)
  | timestamp a i, timestamp b j =>
    some ((compare a.toNat b.toNat).then (compare i.toNat j.toNat))
  | _, _ => none

end Scalar

namespace Value

/-- The scalar that a value of an ordered kind stands for. -/
def scalar? : Value → Option Scalar
  | bool b => some (.bool b)
  | int32 n => some (.number (some (Double.rankOfInt n.toInt)))
  | int64 n => some (.number (some (Double.rankOfInt n.toInt)))
  | double x => some (.number (Double.rank? x))
  | dateTime millis => some (.dateTime millis)
  | objectId id => some (.objectId id)
  | string text => some (.string text)
  | timestamp seconds increment => some (.timestamp seconds increment)
  | _ => none

/-- Order of two values of one ordered kind. -/
def compare? (v w : Value) : Option Ordering :=
  match v.scalar?, w.scalar? with
  | some a, some b => a.compare? b
  | _, _ => none

end Value

mutual

/-- Whether two values are equal for a filter. -/
def Value.alike : Value → Value → Bool
  | .array xs, .array ys => Value.alikeItems xs ys
  | .document fs, .document gs => fs.length == gs.length && Value.alikeFields fs gs
  | v, w =>
    match v.scalar?, w.scalar? with
    | some a, some b => a.equal b
    | none, none => v.same w
    | _, _ => false

/-- Whether two lists hold alike values in the same order. -/
def Value.alikeItems : List Value → List Value → Bool
  | [], [] => true
  | x :: xs, y :: ys => Value.alike x y && Value.alikeItems xs ys
  | _, _ => false

/-- Whether every field of the first document has an alike field in the second. -/
def Value.alikeFields : List (String × Value) → List (String × Value) → Bool
  | [], _ => true
  | (key, v) :: fs, gs =>
    (match Entries.find? gs key with
      | some w => Value.alike v w
      | none => false) && Value.alikeFields fs gs

end

end Dossier
