import Dossier.Identity
import Dossier.Number.Calendar
import Dossier.Number.Shortest
import Dossier.Outline
import Dossier.Text.Hex

/-!
# Outlines of values

* **`Value.outline`**, `Document.outline`: every kind under its own name, decimals by their bytes;
* `Value.display`: the short text of a bound value.
-/

namespace Dossier

/-- The name of a binary subtype. -/
def subtypeOutline (subtype : UInt8) : Outline :=
  let named := ["Generic", "Function", "BinaryOld", "UuidOld", "Uuid", "Md5", "Encrypted", "Column",
    "Sensitive", "Vector"]
  match named[subtype.toNat]? with
  | some name => .atom name
  | none =>
    .tuple (if subtype < 0x80 then "Reserved" else "UserDefined") [.atom (toString subtype.toNat)]

/-- An instant by its date, or by its number when it has none. -/
def instantOutline (millis : Int64) : Outline :=
  .atom ((Calendar.text? millis.toInt).getD (toString millis.toInt))

mutual

/-- The outline of a value. -/
def Value.outline : Value → Outline
  | .null => .atom "Null"
  | .bool b => .tuple "Boolean" [.bool b]
  | .int32 n => .tuple "Int32" [.atom (toString n.toInt)]
  | .int64 n => .tuple "Int64" [.atom (toString n.toInt)]
  | .double x => .tuple "Double" [.atom (Double.text x)]
  | .string text => .tuple "String" [.text text]
  | .array items => .tuple "Array" [.list (Value.outlineItems items)]
  | .document fields => .tuple "Document" [.table (Value.outlineFields fields)]
  | .objectId id => .tuple "ObjectId" [.text id.text]
  | .dateTime millis => .tuple "DateTime" [instantOutline millis]
  | .timestamp seconds increment =>
    .record "Timestamp" [("time", .atom (toString seconds.toNat)),
      ("increment", .atom (toString increment.toNat))]
  | .binary subtype bytes =>
    .record "Binary" [("subtype", subtypeOutline subtype),
      ("bytes", .list (bytes.map fun byte => .atom (toString byte.toNat)))]
  | .decimal128 bits => .tuple "Decimal128" [.atom (String.ofList (Hex.encode 32 bits.toNat))]
  | .regex pattern options =>
    .record "Regex" [("pattern", .text pattern), ("options", .text options)]
  | .code source => .tuple "JavaScriptCode" [.text source]
  | .codeWithScope source scope =>
    .record "JavaScriptCodeWithScope" [("code", .text source),
      ("scope", .tuple "Document" [.table (Value.outlineFields scope)])]
  | .symbol text => .tuple "Symbol" [.text text]
  | .dbPointer space id =>
    .record "DbPointer" [("namespace", .text space), ("id", .tuple "ObjectId" [.text id.text])]
  | .undefined => .atom "Undefined"
  | .minKey => .atom "MinKey"
  | .maxKey => .atom "MaxKey"

/-- The outlines of values. -/
def Value.outlineItems : List Value → List Outline
  | [] => []
  | v :: rest => Value.outline v :: Value.outlineItems rest

/-- The outlines of fields. -/
def Value.outlineFields : List (String × Value) → List (String × Outline)
  | [] => []
  | (key, v) :: rest => (key, Value.outline v) :: Value.outlineFields rest

end

/-- The outline of a document. -/
def Document.outline (d : Document) : Outline := (Value.document d).outline

/-- The short text of a value of one of the kinds that identities have: an object id in a call, an
integer in digits, a text in quotes. Other values are outlined. -/
def Value.display : Value → String
  | .objectId id => "ObjectId(\"" ++ id.text ++ "\")"
  | .int32 n => toString n.toInt
  | .int64 n => toString n.toInt
  | .string text => "\"" ++ text ++ "\""
  | v => v.outline.render

end Dossier
