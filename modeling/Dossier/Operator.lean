/-!
# Operators of queries

| operators | operand |
|---|---|
| `equals` to `lessOrEquals` | one value |
| `contains`, `containsNot` | a set of values |
| `exists_`, `existsNot` | none |
| `arrayElementField` | conditions on an array element |

* **`FilterOp`** with its three classes `relation?`, `isExistence`, `isMembership`;
* **`UpdateOp`** and the class `isNumeric`;
* `Direction`: the direction of a sort key.
-/

namespace Dossier

/-- The comparisons of a field with one value. -/
inductive Relation where
  | equals | differs | greater | less | greaterOrEquals | lessOrEquals
  deriving DecidableEq, Repr

/-- The filter operators. -/
inductive FilterOp where
  | equals | differs | greater | less | greaterOrEquals | lessOrEquals
  | contains | containsNot | exists_ | existsNot | arrayElementField
  deriving DecidableEq, Repr

namespace FilterOp

/-- Every filter operator. -/
def all : List FilterOp :=
  [equals, differs, greater, less, greaterOrEquals, lessOrEquals, contains, containsNot, exists_,
    existsNot, arrayElementField]

/-- The name of a filter operator. -/
def name : FilterOp → String
  | equals => "Equals"
  | differs => "Differs"
  | greater => "Greater"
  | less => "Less"
  | greaterOrEquals => "GreaterOrEquals"
  | lessOrEquals => "LessOrEquals"
  | contains => "Contains"
  | containsNot => "ContainsNot"
  | exists_ => "Exists"
  | existsNot => "ExistsNot"
  | arrayElementField => "ArrayElementField"

/-- The operator of a given name. -/
def ofName? (name : String) : Option FilterOp := all.find? (·.name == name)

/-- The comparison that a value operator makes. -/
def relation? : FilterOp → Option Relation
  | equals => some .equals
  | differs => some .differs
  | greater => some .greater
  | less => some .less
  | greaterOrEquals => some .greaterOrEquals
  | lessOrEquals => some .lessOrEquals
  | _ => none

/-- Whether the operator compares with one value. -/
def isValue (op : FilterOp) : Bool := op.relation?.isSome

/-- Whether the operator asks for presence. -/
def isExistence : FilterOp → Bool
  | exists_ | existsNot => true
  | _ => false

/-- Whether the operator compares with a set of values. -/
def isMembership : FilterOp → Bool
  | contains | containsNot => true
  | _ => false

end FilterOp

/-- The operator of a comparison. -/
def Relation.op : Relation → FilterOp
  | .equals => .equals
  | .differs => .differs
  | .greater => .greater
  | .less => .less
  | .greaterOrEquals => .greaterOrEquals
  | .lessOrEquals => .lessOrEquals

@[simp] theorem Relation.relation?_op (r : Relation) : r.op.relation? = some r := by
  cases r <;> rfl

/-- The update operators. -/
inductive UpdateOp where
  | addOrOverwrite | remove | addIfNotExist | overwriteIfGreater | overwriteIfLower
  | incrementNumericalValue | multiplyNumericalValue | removeFirstFromArray | removeLastFromArray
  | removeFromArray | addToArray
  deriving DecidableEq, Repr

namespace UpdateOp

/-- Every update operator. -/
def all : List UpdateOp :=
  [addOrOverwrite, remove, addIfNotExist, overwriteIfGreater, overwriteIfLower,
    incrementNumericalValue, multiplyNumericalValue, removeFirstFromArray, removeLastFromArray,
    removeFromArray, addToArray]

/-- The name of an update operator. -/
def name : UpdateOp → String
  | addOrOverwrite => "AddOrOverwrite"
  | remove => "Remove"
  | addIfNotExist => "AddIfNotExist"
  | overwriteIfGreater => "OverwriteIfGreater"
  | overwriteIfLower => "OverwriteIfLower"
  | incrementNumericalValue => "IncrementNumericalValue"
  | multiplyNumericalValue => "MultiplyNumericalValue"
  | removeFirstFromArray => "RemoveFirstFromArray"
  | removeLastFromArray => "RemoveLastFromArray"
  | removeFromArray => "RemoveFromArray"
  | addToArray => "AddToArray"

/-- The operator of a given name. -/
def ofName? (name : String) : Option UpdateOp := all.find? (·.name == name)

/-- Whether the operator is arithmetic. -/
def isNumeric : UpdateOp → Bool
  | incrementNumericalValue | multiplyNumericalValue => true
  | _ => false

end UpdateOp

/-- The direction of a sort key. -/
inductive Direction where
  | ascending | descending
  deriving DecidableEq, Repr

namespace Direction

/-- The name of a direction. -/
def name : Direction → String
  | ascending => "Ascending"
  | descending => "Descending"

/-- The direction of a given name. -/
def ofName? (name : String) : Option Direction :=
  [ascending, descending].find? (·.name == name)

/-- The value of a direction in a sort document. -/
def sign : Direction → Int32
  | ascending => 1
  | descending => -1

end Direction

end Dossier
