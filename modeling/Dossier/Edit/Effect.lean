import Dossier.Edit.Arithmetic
import Dossier.Edit.Slot

/-!
# Effects of changes

* **`Change.effect`**: what a change does to the slot at the end of its path, from what the slot
  holds;
* `Change.creates`: whether the change makes the documents that its path lacks; removals do not.
-/

namespace Dossier

namespace Change

/-- Whether the change makes the documents that its path lacks. -/
def creates : Change → Bool
  | remove | removeFirst | removeLast | pull _ | pullMatching _ => false
  | _ => true

/-- The elements to append to; a missing array is empty. -/
def growing (op : UpdateOp) (field : String) : Option Value → Except UpdateError (List Value)
  | none => .ok []
  | some (.array items) => .ok items
  | some _ => .error (.notAnArray op field)

/-- The effect of shortening an array; a missing or unchanged array stays. -/
def shorten (op : UpdateOp) (field : String) (f : List Value → List Value) :
    Option Value → Except UpdateError Effect
  | none => .ok .keep
  | some (.array items) =>
    .ok (if (f items).length = items.length then .keep else .fill (.array (f items)))
  | some _ => .error (.notAnArray op field)

/-- The effect of overwriting with a value that stands in the wanted order to the held one. A missing
field is filled. -/
def overwriteIf (wanted : Ordering) (v : Value) : Option Value → Effect
  | none => .fill v
  | some held => if v.compare? held = some wanted then .fill v else .keep

/-- Whether a document passes all the conditions; other values do not. -/
def passes (conditions : List Condition) : Value → Bool
  | .document fields => Condition.allHold conditions fields
  | _ => false

/-- What a change of `field` does to a slot that holds `existing`. -/
def effect (field : String) (change : Change) (existing : Option Value) :
    Except UpdateError Effect :=
  match change with
  | assign v => .ok (.fill v)
  | remove => .ok .clear
  | addUnique v => do
    let items ← growing change.op field existing
    return if items.any (·.alike v) then .keep else .fill (.array (items ++ [v]))
  | append v => do
    let items ← growing change.op field existing
    return .fill (.array (items ++ [v]))
  | keepGreater v => .ok (overwriteIf .gt v existing)
  | keepLower v => .ok (overwriteIf .lt v existing)
  | increment amount => do
    let result ← Arithmetic.sum.result field existing amount
    return .fill result.toValue
  | multiply amount => do
    let result ← Arithmetic.product.result field existing amount
    return .fill result.toValue
  | removeFirst => shorten change.op field List.tail existing
  | removeLast => shorten change.op field List.dropLast existing
  | pull v => shorten change.op field (List.filter (!·.alike v)) existing
  | pullMatching conditions => shorten change.op field (List.filter (!passes conditions ·)) existing

end Change

end Dossier
