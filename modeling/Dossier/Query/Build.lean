import Dossier.Codebook
import Dossier.Query
import Dossier.Storable

/-!
# Building queries

Every call either records one entry at the end of a query or is refused, in which case there is no
new query. Operands pass through the codebook before they are recorded; identities are recorded as
they are.

* **`Query.filter?`**, `filterValues?`, `filterExists?`, `filterId?`, `filterIds?`, `filterById?`,
  `filterElementById?`, `filterElement?`: conditions;
* **`Query.update?`**, `updateAmount?`, `updateElement?`, `updateNested?`, `pullById?`,
  `pullNestedById?`, `pullMatching?`: updates;
* `filterOn?`, `filterValuesOn?`, `filterExistsOn?`, `updateOn?`, `updateAmountOn?`: the typed forms,
  which take a `Field` and accept fewer operators;
* `Query.cleared`: nothing recorded.
-/

namespace Dossier

/-- A field of the documents `δ` that holds data of type `α`. -/
structure Field (δ α : Type) where
  path : String

/-- An element of an array, by the array's path and the element's identity. -/
structure ElementRef where
  array : String
  id : Identity

namespace Condition

/-- The condition that an operator makes with one operand; existence ignores the operand. -/
def ofOperand? (field : String) (op : FilterOp) (operand : Value) : Option Condition :=
  match op with
  | .exists_ => some (present field true)
  | .existsNot => some (present field false)
  | op => op.relation?.map fun relation => compare field relation operand

/-- The condition that an operator makes with a list of operands: existence ignores them, membership
takes all, and any other operator takes the first. -/
def ofOperands? (field : String) (op : FilterOp) (operands : List Value) : Option Condition :=
  match op, operands with
  | .exists_, _ => some (present field true)
  | .existsNot, _ => some (present field false)
  | _, [] => none
  | .contains, operands => some (member field operands true)
  | .containsNot, operands => some (member field operands false)
  | op, first :: _ => ofOperand? field op first

/-- The condition that an existence operator makes. -/
def ofExistence? (field : String) : FilterOp → Option Condition
  | .exists_ => some (present field true)
  | .existsNot => some (present field false)
  | _ => none

/-- The element conditions that pick an identity. -/
def identified (id : Identity) : List Condition := [compare "_id" .equals id.toValue]

end Condition

namespace Query

/-- Nothing recorded. -/
def cleared (_ : Query) : Query := {}

variable (book : Codebook) (q : Query)

/-! ## Conditions -/

/-- Compares `field` with an identity. -/
def filterId? (field : String) (id : Identity) (op : FilterOp) : Option Query :=
  (Condition.ofOperand? field op id.toValue).map q.addCondition

/-- Compares the document's identity. -/
def filterById? (id : Identity) (op : FilterOp) : Option Query := q.filterId? "_id" id op

/-- Compares `field` with a list of identities. -/
def filterIds? (field : String) (ids : List Identity) (op : FilterOp) : Option Query :=
  (Condition.ofOperands? field op (ids.map Identity.toValue)).map q.addCondition

/-- Compares `field` with a value. -/
def filter? (field : String) (v : Value) (op : FilterOp) : Option Query := do
  let v ← (book.encodeOperand field v).toOption
  (Condition.ofOperand? field op v).map q.addCondition

/-- Compares `field` with a list of values; every one has to pass the codebook. -/
def filterValues? (field : String) (vs : List Value) (op : FilterOp) : Option Query := do
  let vs ← (vs.mapM (book.encodeOperand field)).toOption
  (Condition.ofOperands? field op vs).map q.addCondition

/-- Asks whether `field` is there. -/
def filterExists? (field : String) (op : FilterOp) : Option Query :=
  (Condition.ofExistence? field op).map q.addCondition

/-- Wants an element of the given identity in an array. -/
def filterElementById? (array : String) (id : Identity) : Option Query :=
  some (q.addCondition (.element array (Condition.identified id)))

/-- Wants an element in an array that passes every condition of another query; refused when it has
none. -/
def filterElement? (array : String) (element : Query) : Option Query :=
  if element.conditions.isEmpty then none
  else some (q.addCondition (.element array element.conditions))

/-! ## Updates -/

/-- Changes `field`. -/
def update? (field : String) (v : Value) (op : UpdateOp) : Option Query := do
  let v ← (book.encodeOperand field v).toOption
  (Change.ofOperator? op v).map fun change => q.addUpdate ⟨field, change⟩

/-- Changes `field` by an amount; refused for other operators and operands. -/
def updateAmount? (field : String) (v : Value) (op : UpdateOp) : Option Query := do
  let amount ← Amount.ofValue? v
  (Change.arithmetic? op amount).map fun change => q.addUpdate ⟨field, change⟩

/-- The path to the bound elements of an array. -/
def elementPath (array : String) : String := array ++ ".$[elem]"

/-- The path to bound elements two levels deep; both levels are named after the inner array. -/
def nestedPath (inner : String) : String := inner ++ ".$[elema]." ++ inner ++ ".$[elemb]"

/-- Binds a placeholder to the elements of an identity. -/
def bindingTo (placeholder : String) (id : Identity) : Binding := ⟨placeholder, "_id", id.toValue⟩

/-- Changes one element of an array. -/
def updateElement? (element : ElementRef) (v : Value) (op : UpdateOp) : Option Query := do
  let field := elementPath element.array
  let v ← (book.encodeOperand field v).toOption
  (Change.ofOperator? op v).map fun change =>
    (q.addBindings [bindingTo "elem" element.id]).addUpdate ⟨field, change⟩

/-- Changes one element of an array inside an element of an array. -/
def updateNested? (outer inner : ElementRef) (v : Value) (op : UpdateOp) : Option Query := do
  let field := nestedPath inner.array
  let v ← (book.encodeOperand field v).toOption
  (Change.ofOperator? op v).map fun change =>
    (q.addBindings [bindingTo "elema" outer.id, bindingTo "elemb" inner.id]).addUpdate
      ⟨field, change⟩

/-- Removes the elements of an identity from an array. -/
def pullById? (array : String) (id : Identity) : Option Query :=
  some (q.addUpdate ⟨array, .pullMatching (Condition.identified id)⟩)

/-- Removes the elements of an identity from an array inside the matched element of another. -/
def pullNestedById? (array inner : String) (id : Identity) : Option Query :=
  q.pullById? (array ++ ".$." ++ inner) id

/-- Removes the elements that pass every condition of another query; refused when it has none. -/
def pullMatching? (array : String) (element : Query) : Option Query :=
  if element.conditions.isEmpty then none
  else some (q.addUpdate ⟨array, .pullMatching element.conditions⟩)

/-! ## Typed forms -/

section Typed

variable {δ α : Type} [ToValue α]

/-- The stored form of an operand of a typed call. -/
def typedOperand? (field : Field δ α) (a : α) : Option Value :=
  (toValue a >>= book.encodeOperand field.path).toOption

/-- Compares a field with a datum; only comparisons with one value are accepted. -/
def filterOn? (field : Field δ α) (a : α) (op : FilterOp) : Option Query := do
  if !op.isValue then failure
  let v ← typedOperand? book field a
  (Condition.ofOperand? field.path op v).map q.addCondition

/-- Compares a field with a list of data: membership takes all, any other operator the first. An
empty list is refused. -/
def filterValuesOn? (field : Field δ α) (as : List α) (op : FilterOp) : Option Query :=
  match as with
  | [] => none
  | first :: _ =>
    if op.isMembership then do
      let vs ← as.mapM (typedOperand? book field)
      (Condition.ofOperands? field.path op vs).map q.addCondition
    else q.filterOn? book field first op

/-- Asks whether a field is there. -/
def filterExistsOn? (field : Field δ α) (op : FilterOp) : Option Query :=
  q.filterExists? field.path op

/-- The operators of typed updates. -/
def typedUpdates : List UpdateOp := [.addOrOverwrite, .overwriteIfGreater, .overwriteIfLower]

/-- Overwrites a field, always or if the datum is greater or lower. -/
def updateOn? (field : Field δ α) (a : α) (op : UpdateOp) : Option Query := do
  if !typedUpdates.contains op then failure
  let v ← typedOperand? book field a
  (Change.ofOperator? op v).map fun change => q.addUpdate ⟨field.path, change⟩

/-- Changes a field by an amount. -/
def updateAmountOn? (field : Field δ α) (a : α) (op : UpdateOp) : Option Query := do
  let v ← (toValue a).toOption
  q.updateAmount? field.path v op

end Typed

end Query

end Dossier
