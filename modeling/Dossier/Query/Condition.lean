import Dossier.Operator
import Dossier.Text.Dotted
import Dossier.Value.Order
import Dossier.Value.Path

/-!
# Conditions on documents

* **`Condition`**: one test of a field, with the operand its operator needs;
* `Condition.op`, `Condition.field`: the operator and the field it is recorded under;
* **`Condition.holds`**, `Condition.allHold`: whether a document passes. A comparison passes when one
  of the reached values does, or an element of a reached array; a missing field equals null; an
  element condition wants one document in a reached array that passes all its conditions.
-/

namespace Dossier

/-- One test of a field. -/
inductive Condition where
  | compare (field : String) (relation : Relation) (operand : Value)
  /-- The field is there, or not there. -/
  | present (field : String) (expected : Bool)
  /-- The field equals one of the operands, or none of them. -/
  | member (field : String) (operands : List Value) (expected : Bool)
  /-- Some document in the array passes all the conditions. -/
  | element (field : String) (conditions : List Condition)

namespace Condition

/-- The dotted field that is tested. -/
def field : Condition → String
  | compare field _ _ => field
  | present field _ => field
  | member field _ _ => field
  | element field _ => field

/-- The operator that the condition is recorded under. -/
def op : Condition → FilterOp
  | compare _ relation _ => relation.op
  | present _ expected => if expected then .exists_ else .existsNot
  | member _ _ expected => if expected then .contains else .containsNot
  | element _ _ => .arrayElementField

end Condition

namespace Document

/-- The values that a comparison with `path` looks at: those reached, each array among them
followed by its elements. -/
def candidates (d : Document) (path : Path) : List Value :=
  (d.reach path).flatMap fun v => v :: v.items

/-- Whether a path equals an operand: some candidate is alike, or the operand is null and nothing
is reached. -/
def equalsAt (d : Document) (path : Path) (operand : Value) : Bool :=
  (operand matches .null && (d.reach path).isEmpty) || (d.candidates path).any (·.alike operand)

/-- Whether some candidate stands in the wanted order to an operand. -/
def orderedAt (d : Document) (path : Path) (operand : Value) (wanted : Ordering → Bool) : Bool :=
  (d.candidates path).any fun v => (v.compare? operand).any wanted

/-- Whether a path passes a comparison with an operand. -/
def compareAt (d : Document) (path : Path) (operand : Value) : Relation → Bool
  | .equals => d.equalsAt path operand
  | .differs => !d.equalsAt path operand
  | .greater => d.orderedAt path operand Ordering.isGT
  | .greaterOrEquals => d.orderedAt path operand Ordering.isGE
  | .less => d.orderedAt path operand Ordering.isLT
  | .lessOrEquals => d.orderedAt path operand Ordering.isLE

/-- The documents in the arrays that a path reaches. -/
def elementsAt (d : Document) (path : Path) : List Document :=
  ((d.reach path).flatMap Value.items).filterMap Value.fields?

end Document

mutual

/-- Whether a document passes a condition. -/
def Condition.holds : Condition → Document → Bool
  | .compare field relation operand, d => d.compareAt (Dotted.segments field) operand relation
  | .present field expected, d => !(d.reach (Dotted.segments field)).isEmpty == expected
  | .member field operands expected, d =>
    operands.any (d.equalsAt (Dotted.segments field)) == expected
  | .element field conditions, d =>
    (d.elementsAt (Dotted.segments field)).any (Condition.allHold conditions)

/-- Whether a document passes every condition. -/
def Condition.allHold : List Condition → Document → Bool
  | [], _ => true
  | c :: rest, d => Condition.holds c d && Condition.allHold rest d

end

theorem Condition.allHold_iff {cs : List Condition} {d : Document} :
    Condition.allHold cs d = true ↔ ∀ c ∈ cs, c.holds d = true := by
  induction cs with
  | nil => simp [Condition.allHold]
  | cons c rest ih => simp [Condition.allHold, ih]

end Dossier
