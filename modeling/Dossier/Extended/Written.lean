import Dossier.Extended.Form

/-!
# Values as they are written

Before a value is stored, every document that is the extended form of another value is replaced by
it, from the inside out. A document that only resembles an extended form stays as it is.

* `Form.standsFor?`: the value of a form with a content of the right kind;
* **`Document.standsFor?`**: the value of a whole document, which has no other keys;
* **`Value.written`**: the value as it is written. Options of patterns are sorted, and decimals take
  their canonical pattern.
-/

namespace Dossier

namespace Form

/-- The timestamp that two words stand for: of 32 bits, taken without sign, or of 64 bits that fit
them. -/
def timestamp? (seconds increment : Value) : Option Value :=
  match seconds, increment with
  | .int32 seconds, .int32 increment => some (.timestamp seconds.toUInt32 increment.toUInt32)
  | .int64 seconds, .int64 increment => do
    return .timestamp (← Width.uint32? seconds.toInt) (← Width.uint32? increment.toInt)
  | _, _ => none

/-- The value of a form whose content is a document; further fields of the content do not matter. -/
def ofBody? (form : Form) (body : Document) : Option Value :=
  match form with
  | timestamp => do timestamp? (← body.find? "t") (← body.find? "i")
  | regex =>
    match body.find? "pattern", body.find? "options" with
    | some (.string pattern), some (.string options) => Value.ofPattern? pattern options
    | _, _ => none
  | dbPointer =>
    match body.find? "$ref", body.find? "$id" with
    | some (.string space), some (.objectId id) => some (.dbPointer space id)
    | _, _ => none
  | binary =>
    match body.find? "base64", body.find? "subType", body.find? "bytes" with
    | some (.string base64), some (.string subtype), _ => Value.ofEncoded? base64 subtype
    | some (.string _), _, _ => none
    | _, some (.int32 subtype), some (.binary 0 bytes) =>
      (Width.uint8? subtype.toInt).map fun subtype => .binary subtype bytes
    | _, _, _ => none
  | _ => none

/-- The value that the only field of a document stands for. -/
def standsFor? : Form → Value → Option Value
  | uuid, _ => none
  | form, .string text => form.ofText? text
  | form, .document body => form.ofBody? body
  | dateTime, .int64 millis => some (.dateTime millis)
  | decimalBytes, .binary 0 bytes => Value.ofDecimalBytes? bytes
  | minKey, .int32 n => if n = 1 then some .minKey else none
  | minKey, .int64 n => if n = 1 then some .minKey else none
  | maxKey, .int32 n => if n = 1 then some .maxKey else none
  | maxKey, .int64 n => if n = 1 then some .maxKey else none
  | undefined, .bool true => some .undefined
  | _, _ => none

end Form

namespace Document

/-- The value that a whole document stands for. -/
def standsFor? : Document → Option Value
  | [(key, v)] => (Form.ofKey? key).bind (·.standsFor? v)
  | [("$code", .string source), ("$scope", .document scope)] => some (.codeWithScope source scope)
  | [("$scope", .document scope), ("$code", .string source)] => some (.codeWithScope source scope)
  | _ => none

/-- The value that a document stands for, or else the document. -/
def collapsed (d : Document) : Value := (standsFor? d).getD (.document d)

end Document

mutual

/-- The value as it is written. -/
def Value.written : Value → Value
  | .array items => .array (Value.writtenItems items)
  | .document fields => Document.collapsed (Value.writtenFields fields)
  | .codeWithScope source scope =>
    Document.collapsed
      [("$code", .string source), ("$scope", Document.collapsed (Value.writtenFields scope))]
  | .regex pattern options => .regex pattern (Value.sortedOptions options)
  | .decimal128 bits => .decimal128 (Decimal128.canonical bits)
  | v => v

/-- The values as they are written. -/
def Value.writtenItems : List Value → List Value
  | [] => []
  | v :: rest => Value.written v :: Value.writtenItems rest

/-- The fields as they are written. -/
def Value.writtenFields : List (String × Value) → List (String × Value)
  | [] => []
  | (key, v) :: rest => (key, Value.written v) :: Value.writtenFields rest

end

end Dossier
