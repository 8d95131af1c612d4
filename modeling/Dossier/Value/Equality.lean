import Dossier.Number.Double
import Dossier.Value

/-!
# Identity of stored values

`Value.same` tells whether a write changed anything. Values are the same when their kinds agree and
their contents do: doubles numerically (so NaN is never the same as anything, and both zeros are
the same), arrays in order, and documents without regard to the order of their keys.
-/

namespace Dossier

mutual

/-- Whether two values have the same kind and content. -/
def Value.same : Value → Value → Bool
  | .null, .null => true
  | .bool a, .bool b => a == b
  | .int32 a, .int32 b => a == b
  | .int64 a, .int64 b => a == b
  | .double a, .double b => Double.equal a b
  | .string a, .string b => a == b
  | .array xs, .array ys => Value.sameItems xs ys
  | .document fs, .document gs => fs.length == gs.length && Value.sameFields fs gs
  | .objectId a, .objectId b => a == b
  | .dateTime a, .dateTime b => a == b
  | .timestamp a i, .timestamp b j => a == b && i == j
  | .binary s xs, .binary t ys => s == t && xs == ys
  | .decimal128 a, .decimal128 b => a == b
  | .regex p o, .regex q u => p == q && o == u
  | .code a, .code b => a == b
  | .codeWithScope a fs, .codeWithScope b gs =>
    a == b && fs.length == gs.length && Value.sameFields fs gs
  | .symbol a, .symbol b => a == b
  | .dbPointer a id, .dbPointer b other => a == b && id == other
  | .undefined, .undefined => true
  | .minKey, .minKey => true
  | .maxKey, .maxKey => true
  | _, _ => false

/-- Whether two lists hold the same values in the same order. -/
def Value.sameItems : List Value → List Value → Bool
  | [], [] => true
  | x :: xs, y :: ys => Value.same x y && Value.sameItems xs ys
  | _, _ => false

/-- Whether every field of the first document is the same in the second. -/
def Value.sameFields : List (String × Value) → List (String × Value) → Bool
  | [], _ => true
  | (key, v) :: fs, gs =>
    (match Entries.find? gs key with
      | some w => Value.same v w
      | none => false) && Value.sameFields fs gs

end

/-- Whether two documents have the same fields, in whatever order. -/
def Document.same (d e : Document) : Bool := (Value.document d).same (.document e)

end Dossier
