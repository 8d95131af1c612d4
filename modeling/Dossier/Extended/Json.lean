import Dossier.Extended.Restored
import Dossier.Json

/-!
# Values in JSON

* **`Json.asValue?`**: the value that a JSON value stands for, before its extended forms are read.
  Members keep their repetitions. Integers beyond 64 signed bits stand for no value, and of a number
  that is no integer only its kind is known.
-/

namespace Dossier

mutual

/-- The value that a JSON value stands for. -/
def Json.asValue? : Json → Option Value
  | .null => some .null
  | .bool b => some (.bool b)
  | .natural n => (Width.int64? n.toNat).map .int64
  | .negative n => some (.int64 n)
  | .real => some (.double 0)
  | .string text => some (.string text)
  | .array items => (Json.itemsAsValues? items).map .array
  | .object members => (Json.membersAsFields? members).map .document

/-- The values that the elements of a JSON array stand for. -/
def Json.itemsAsValues? : List Json → Option (List Value)
  | [] => some []
  | json :: rest =>
    match Json.asValue? json with
    | some v => (Json.itemsAsValues? rest).map (v :: ·)
    | none => none

/-- The fields that the members of a JSON object stand for. -/
def Json.membersAsFields? : List (String × Json) → Option (List (String × Value))
  | [] => some []
  | (key, json) :: rest =>
    match Json.asValue? json with
    | some v => (Json.membersAsFields? rest).map ((key, v) :: ·)
    | none => none

end

end Dossier
