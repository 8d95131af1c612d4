import Dossier.Mongo.Filter
import Dossier.Query

/-!
# Updates in MongoDB's query language

* **`Mongo.update`**: the update document, grouped by operator in the order of first use. A later
  operand for the same operator and path takes the place of the earlier one;
* `Mongo.arrayFilters`: the documents that bind placeholders.
-/

namespace Dossier.Mongo

/-- The operator and the operand of a change. -/
def change : Change → String × Value
  | .assign v => ("$set", v)
  | .remove => ("$unset", .string "")
  | .addUnique v => ("$addToSet", v)
  | .keepGreater v => ("$max", v)
  | .keepLower v => ("$min", v)
  | .increment amount => ("$inc", amount.toValue)
  | .multiply amount => ("$mul", amount.toValue)
  | .removeFirst => ("$pop", .int32 (-1))
  | .removeLast => ("$pop", .int32 1)
  | .pull v => ("$pull", v)
  | .pullMatching conditions => ("$pull", .document (filter conditions))
  | .append v => ("$push", v)

/-- The operands of an operator by path. -/
def operands (compiled : Document) (operator : String) : Document :=
  ((compiled.find? operator).bind Value.fields?).getD []

/-- Adds one update. -/
def addUpdate (compiled : Document) (u : Update) : Document :=
  let (operator, operand) := change u.change
  compiled.insert operator (.document ((operands compiled operator).insert u.field operand))

/-- The update document. -/
def update (updates : List Update) : Document := updates.foldl addUpdate []

/-- The document of a binding. -/
def binding (b : Binding) : Document := onField b.path "$eq" b.value

/-- The documents that bind placeholders, if there are any. -/
def arrayFilters (bindings : List Binding) : Option (List Document) :=
  if bindings.isEmpty then none else some (bindings.map binding)

end Dossier.Mongo
