import Dossier.Query.Condition

/-!
# Conditions in MongoDB's query language

* **`Mongo.filter`**: the query document of a list of conditions. No condition gives the empty
  document, one stands alone, more are joined by `$and`.
-/

namespace Dossier.Mongo

/-- A document with one field. -/
def single (key : String) (v : Value) : Document := [(key, v)]

/-- A condition of one operator on a field. -/
def onField (field operator : String) (operand : Value) : Document :=
  single field (.document (single operator operand))

/-- The operator of a comparison. -/
def comparisonOperator : Relation → String
  | .equals => "$eq"
  | .differs => "$ne"
  | .greater => "$gt"
  | .less => "$lt"
  | .greaterOrEquals => "$gte"
  | .lessOrEquals => "$lte"

/-- The operator of a membership. -/
def membershipOperator (expected : Bool) : String := if expected then "$in" else "$nin"

/-- Joins the query documents of conditions. -/
def conjunction : List Document → Document
  | [] => []
  | [d] => d
  | ds => single "$and" (.array (ds.map .document))

mutual

/-- The query document of a condition. -/
def condition : Condition → Document
  | .compare field relation operand => onField field (comparisonOperator relation) operand
  | .present field expected => onField field "$exists" (.bool expected)
  | .member field operands expected =>
    onField field (membershipOperator expected) (.array operands)
  | .element field conditions =>
    onField field "$elemMatch" (.document (conjunction (Mongo.conditions conditions)))

/-- The query documents of conditions. -/
def conditions : List Condition → List Document
  | [] => []
  | c :: rest => Mongo.condition c :: Mongo.conditions rest

end

/-- The query document of a list of conditions. -/
def filter (cs : List Condition) : Document := conjunction (conditions cs)

end Dossier.Mongo
