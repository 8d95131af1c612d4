import Mathlib
import Dossier.Proofs.Identity.Text
import Dossier.Proofs.Number.Nearest
import Dossier.Value.Order

/-!
# Identities that filters confuse

Filters and bindings compare stored forms, and compare integers as doubles.

* **`Identity.Confused`**: the pairs that filters take for each other: equal identities, and
  integers with one nearest double (`Identity.alike_toValue_iff`, `Identity.alike_toValue_congr`);
* **`Identity.Exact`**: the identities that are confused with no other
  (`Identity.forall_confused_iff_exact`): all but integers that are not isolated.
-/

namespace Dossier

namespace Identity

/-- Whether filters take two identities for each other: they are equal, or integers with one nearest
double. -/
def Confused : Identity → Identity → Prop
  | integer m, integer n => Double.rankOfInt m.toInt = Double.rankOfInt n.toInt
  | a, b => a = b

/-- Whether filters confuse an identity with no other. -/
def Exact : Identity → Prop
  | integer n => Double.Isolated n.toInt
  | _ => True

theorem alike_toValue_iff_scalar? (v : Value) (b : Identity) :
    v.alike b.toValue = true ↔ v.scalar? = b.toValue.scalar? := by
  cases v
  case double x =>
    cases hx : Double.rank? x <;> cases b <;>
      simp [toValue, Value.alike, Value.scalar?, Scalar.equal, hx]
  all_goals
    cases b <;> simp [toValue, Value.alike, Value.scalar?, Scalar.equal]

theorem alike_toValue_iff (a b : Identity) : a.toValue.alike b.toValue = true ↔ a.Confused b := by
  rw [alike_toValue_iff_scalar?]
  cases a <;> cases b <;> simp [toValue, Value.scalar?, Confused]
  case uuid.uuid a b => exact ⟨Uuid.text_injective, congrArg Uuid.text⟩

/-- A value that equals one identity in filters equals just those confused with it. -/
theorem alike_toValue_congr {v : Value} {a : Identity} (h : v.alike a.toValue = true)
    (b : Identity) : v.alike b.toValue = true ↔ a.Confused b := by
  rw [alike_toValue_iff_scalar?] at h
  rw [alike_toValue_iff_scalar?, h, ← alike_toValue_iff_scalar?, alike_toValue_iff]

theorem Confused.refl (a : Identity) : a.Confused a := by
  cases a <;> simp only [Confused]

/-- **The identities that filters confuse with no other.** -/
theorem forall_confused_iff_exact (b : Identity) :
    (∀ a : Identity, a.Confused b → a = b) ↔ b.Exact := by
  cases b with
  | object id => exact ⟨fun _ => trivial, fun _ a h => by cases a <;> exact h⟩
  | uuid id => exact ⟨fun _ => trivial, fun _ a h => by cases a <;> exact h⟩
  | integer n =>
    rw [Exact, ← Double.rankOfInt_injective_iff]
    constructor
    · intro h m hm
      exact integer.inj (h (integer m) hm)
    · intro h a ha
      cases a with
      | integer m => rw [h m ha]
      | object id => exact ha
      | uuid id => exact ha

end Identity

end Dossier
