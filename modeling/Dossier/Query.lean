import Dossier.Query.Condition

/-!
# Queries

A query collects conditions on documents, updates of their fields, and bindings of the placeholders
in update paths, each list in the order of the calls that made it.

* **`Query`**;
* `Update`, `Change`, `Amount`: what an update does to its field;
* `Binding`: which array elements a placeholder stands for.
-/

namespace Dossier

/-- An operand of an arithmetic update. -/
inductive Amount where
  | int32 (n : Int32)
  | int64 (n : Int64)
  | double (x : Float)

namespace Amount

/-- The amount that a value stands for; only the three number kinds do. -/
def ofValue? : Value → Option Amount
  | .int32 n => some (int32 n)
  | .int64 n => some (int64 n)
  | .double x => some (double x)
  | _ => none

/-- The value of an amount. -/
def toValue : Amount → Value
  | int32 n => .int32 n
  | int64 n => .int64 n
  | double x => .double x

/-- Whether two amounts have the same kind and the same number. -/
def same (a b : Amount) : Bool := a.toValue.same b.toValue

@[simp] theorem ofValue?_toValue (a : Amount) : ofValue? a.toValue = some a := by
  cases a <;> rfl

end Amount

/-- What an update does to its field. -/
inductive Change where
  | assign (v : Value)
  | remove
  /-- Appends to the array unless an alike element is there. -/
  | addUnique (v : Value)
  | keepGreater (v : Value)
  | keepLower (v : Value)
  | increment (amount : Amount)
  | multiply (amount : Amount)
  | removeFirst
  | removeLast
  /-- Removes the elements alike to a value. -/
  | pull (v : Value)
  /-- Removes the documents that pass all the conditions. -/
  | pullMatching (conditions : List Condition)
  | append (v : Value)

namespace Change

/-- The operator that the change is recorded under. -/
def op : Change → UpdateOp
  | assign _ => .addOrOverwrite
  | remove => .remove
  | addUnique _ => .addIfNotExist
  | keepGreater _ => .overwriteIfGreater
  | keepLower _ => .overwriteIfLower
  | increment _ => .incrementNumericalValue
  | multiply _ => .multiplyNumericalValue
  | removeFirst => .removeFirstFromArray
  | removeLast => .removeLastFromArray
  | pull _ => .removeFromArray
  | pullMatching _ => .removeFromArray
  | append _ => .addToArray

/-- The change that an arithmetic operator makes with an amount. -/
def arithmetic? (op : UpdateOp) (amount : Amount) : Option Change :=
  match op with
  | .incrementNumericalValue => some (increment amount)
  | .multiplyNumericalValue => some (multiply amount)
  | _ => none

/-- The change that an operator makes with a value; arithmetic needs an amount, and removals ignore
the value. -/
def ofOperator? (op : UpdateOp) (v : Value) : Option Change :=
  match op with
  | .addOrOverwrite => some (assign v)
  | .remove => some remove
  | .addIfNotExist => some (addUnique v)
  | .overwriteIfGreater => some (keepGreater v)
  | .overwriteIfLower => some (keepLower v)
  | .incrementNumericalValue => (Amount.ofValue? v).map increment
  | .multiplyNumericalValue => (Amount.ofValue? v).map multiply
  | .removeFirstFromArray => some removeFirst
  | .removeLastFromArray => some removeLast
  | .removeFromArray => some (pull v)
  | .addToArray => some (append v)

end Change

/-- A change of one field. -/
structure Update where
  field : String
  change : Change

/-- Binds `$[placeholder]` in update paths to the array elements whose `field` equals `value`. -/
structure Binding where
  placeholder : String
  field : String
  value : Value

/-- The dotted path of the bound field. -/
def Binding.path (b : Binding) : String := b.placeholder ++ "." ++ b.field

/-- Conditions, updates and bindings in the order in which they were added. -/
structure Query where
  conditions : List Condition := []
  updates : List Update := []
  bindings : List Binding := []

namespace Query

/-- The query that matches every document and changes nothing. -/
def empty : Query := {}

/-- Whether a document passes every condition. -/
def accepts (q : Query) (d : Document) : Bool := Condition.allHold q.conditions d

/-- Adds a condition at the end. -/
def addCondition (q : Query) (c : Condition) : Query :=
  { q with conditions := q.conditions ++ [c] }

/-- Adds an update at the end. -/
def addUpdate (q : Query) (u : Update) : Query := { q with updates := q.updates ++ [u] }

/-- Adds bindings at the end. -/
def addBindings (q : Query) (bs : List Binding) : Query := { q with bindings := q.bindings ++ bs }

end Query

end Dossier
