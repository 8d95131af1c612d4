import Dossier.Extended.Json
import Dossier.Json.Reader
import Dossier.Storable

/-!
# Identities in JSON

* **`Identity.ofJson?`**: an integer of 64 bits, a text that is a UUID or an object id, or the
  complete extended form of an object id;
* `Identity.parseJson`: the same from a text.
-/

namespace Dossier

namespace Identity

/-- The identity that a JSON value stands for. -/
def ofJson? : Json → Option Identity
  | .natural n => (Width.int64? n.toNat).map integer
  | .negative n => some (integer n)
  | .string text => guess? text
  | .object members =>
    match (Json.object members).asValue?.bind (Value.restored? true) with
    | some (.objectId id) => some (object id)
    | _ => none
  | _ => none

/-- The identity that a JSON text stands for. -/
def parseJson (text : String) : Except StoreError Identity :=
  match Json.parse? text with
  | none => unconvertible .malformedJson
  | some json =>
    match ofJson? json with
    | some id => .ok id
    | none => unconvertible .notAnIdentity

end Identity

end Dossier
