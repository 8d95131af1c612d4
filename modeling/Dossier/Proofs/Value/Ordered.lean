import Mathlib
import Dossier.Value.Order

/-!
# Values of ordered kinds

Values of one ordered kind are in order, NaN apart; values of different kinds have none.

* **`Scalar.Ordered`**: the order of two scalars of one kind, by cases on the kind;
* `Value.compare?_swap`, `Value.compare?_self`: the order of two values from the other side;
* **`Value.compare?_trans`**: values in an order with the same one are in an order.
-/

namespace Dossier

namespace Scalar

variable {a b c : Scalar} {ordering first second : Ordering}

/-- The order of two points in time, by seconds and then increment. -/
def compareTimes (s t : UInt32 × UInt32) : Ordering :=
  (compare s.1.toNat t.1.toNat).then (compare s.2.toNat t.2.toNat)

instance : Std.TransCmp compareTimes :=
  inferInstanceAs (Std.TransCmp (compareLex
    (compareOn fun time : UInt32 × UInt32 => time.1.toNat)
    (compareOn fun time : UInt32 × UInt32 => time.2.toNat)))

/-- The order of two scalars of one kind. -/
inductive Ordered : Scalar → Scalar → Ordering → Prop
  | bool (b c : Bool) : Ordered (bool b) (bool c) (compare b.toNat c.toNat)
  | number (r s : Int) : Ordered (number (some r)) (number (some s)) (compare r s)
  | dateTime (m n : Int64) : Ordered (dateTime m) (dateTime n) (compare m.toInt n.toInt)
  | objectId (i j : ObjectId) :
      Ordered (objectId i) (objectId j) (compare i.toBitVec.toNat j.toBitVec.toNat)
  | string (s t : String) : Ordered (string s) (string t) (compare s t)
  | timestamp (s i t j : UInt32) :
      Ordered (timestamp s i) (timestamp t j) (compareTimes (s, i) (t, j))

theorem compare?_eq_some_iff : a.compare? b = some ordering ↔ Ordered a b ordering := by
  constructor
  · intro h
    unfold compare? at h
    split at h <;> cases h <;> constructor
  · intro h
    cases h <;> rfl

theorem Ordered.swap (h : Ordered a b ordering) : Ordered b a ordering.swap := by
  cases h
  case timestamp s i t j =>
    rw [← Std.OrientedCmp.eq_swap]
    constructor
  all_goals
    rw [← Std.OrientedOrd.eq_swap]
    constructor

/-- **Scalars in an order with the same one** are in an order. -/
theorem Ordered.trans (hab : Ordered a b first) (hbc : Ordered b c second) :
    ∃ both, Ordered a c both ∧ (first.isLE = true → second.isLE = true → both.isLE = true) := by
  cases hab <;> cases hbc
  case timestamp.timestamp => exact ⟨_, .timestamp .., Std.TransCmp.isLE_trans⟩
  all_goals exact ⟨_, by constructor, Std.TransOrd.isLE_trans⟩

end Scalar

namespace Value

variable {v w x : Value} {ordering first second : Ordering}

theorem compare?_eq_some_iff : v.compare? w = some ordering ↔
    ∃ a b, v.scalar? = some a ∧ w.scalar? = some b ∧ Scalar.Ordered a b ordering := by
  rw [compare?]
  cases v.scalar? <;> cases w.scalar? <;> simp [Scalar.compare?_eq_some_iff]

theorem compare?_swap (h : v.compare? w = some ordering) : w.compare? v = some ordering.swap := by
  obtain ⟨a, b, ha, hb, hab⟩ := compare?_eq_some_iff.mp h
  exact compare?_eq_some_iff.mpr ⟨b, a, hb, ha, hab.swap⟩

theorem compare?_self (v : Value) : v.compare? v = none ∨ v.compare? v = some .eq := by
  cases h : v.compare? v with
  | none => exact .inl rfl
  | some ordering =>
    have hswap := compare?_swap h
    rw [h] at hswap
    cases ordering <;> first | exact .inr rfl | cases hswap

theorem compare?_eq_none_symm (h : v.compare? w = none) : w.compare? v = none := by
  cases hw : w.compare? v with
  | none => rfl
  | some ordering =>
    rw [compare?_swap hw] at h
    cases h

theorem compare?_trans (hvw : v.compare? w = some first) (hwx : w.compare? x = some second) :
    ∃ both, v.compare? x = some both ∧
      (first.isLE = true → second.isLE = true → both.isLE = true) := by
  obtain ⟨a, b, ha, hb, hab⟩ := compare?_eq_some_iff.mp hvw
  obtain ⟨b', c, hb', hc, hbc⟩ := compare?_eq_some_iff.mp hwx
  obtain rfl : b = b' := Option.some.inj (hb.symm.trans hb')
  obtain ⟨both, hac, hle⟩ := hab.trans hbc
  exact ⟨both, compare?_eq_some_iff.mpr ⟨a, c, ha, hc, hac⟩, hle⟩

end Value

end Dossier
