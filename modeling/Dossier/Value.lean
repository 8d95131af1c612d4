import Dossier.Entries

/-!
# Values

The value type of the store: the scalar kinds of the BSON format, arrays and documents. A document
is a list of fields in insertion order.

* **`Value`**, `Document`, and the identifier `ObjectId`;
* `ElementKind`, `Value.kind`: the kind of a value and its name in messages;
* `Value.items`: the elements of an array.
-/

namespace Dossier

/-- A twelve-byte object identifier; its first four bytes count seconds since 1970. -/
structure ObjectId where
  toBitVec : BitVec 96
  deriving DecidableEq, Hashable, Repr

/-- The identifier of zero bytes. -/
def ObjectId.zero : ObjectId := ⟨0⟩

/-- The second since 1970 in which the identifier was made. -/
def ObjectId.seconds (id : ObjectId) : Nat := id.toBitVec.toNat >>> 64

/-- A stored value. -/
inductive Value where
  | null
  | bool (b : Bool)
  | int32 (n : Int32)
  | int64 (n : Int64)
  | double (x : Float)
  | string (text : String)
  | array (items : List Value)
  | document (fields : List (String × Value))
  | objectId (id : ObjectId)
  | dateTime (millis : Int64)
  | timestamp (seconds increment : UInt32)
  | binary (subtype : UInt8) (bytes : List UInt8)
  | decimal128 (bits : BitVec 128)
  | regex (pattern options : String)
  | code (source : String)
  | codeWithScope (source : String) (scope : List (String × Value))
  | symbol (text : String)
  | dbPointer (space : String) (id : ObjectId)
  | undefined
  | minKey
  | maxKey
  deriving Inhabited

/-- Fields in insertion order. -/
abbrev Document : Type := Entries Value

/-- The kind of a value. -/
inductive ElementKind where
  | double | string | embeddedDocument | array | binary | undefined | objectId | boolean | dateTime
  | null | regularExpression | dbPointer | javaScriptCode | symbol | javaScriptCodeWithScope | int32
  | timestamp | int64 | decimal128 | maxKey | minKey
  deriving DecidableEq, Repr

/-- The name of a kind in messages. -/
def ElementKind.name : ElementKind → String
  | .double => "Double"
  | .string => "String"
  | .embeddedDocument => "EmbeddedDocument"
  | .array => "Array"
  | .binary => "Binary"
  | .undefined => "Undefined"
  | .objectId => "ObjectId"
  | .boolean => "Boolean"
  | .dateTime => "DateTime"
  | .null => "Null"
  | .regularExpression => "RegularExpression"
  | .dbPointer => "DbPointer"
  | .javaScriptCode => "JavaScriptCode"
  | .symbol => "Symbol"
  | .javaScriptCodeWithScope => "JavaScriptCodeWithScope"
  | .int32 => "Int32"
  | .timestamp => "Timestamp"
  | .int64 => "Int64"
  | .decimal128 => "Decimal128"
  | .maxKey => "MaxKey"
  | .minKey => "MinKey"

namespace Value

/-- The kind of a value. -/
def kind : Value → ElementKind
  | null => .null
  | bool _ => .boolean
  | int32 _ => .int32
  | int64 _ => .int64
  | double _ => .double
  | string _ => .string
  | array _ => .array
  | document _ => .embeddedDocument
  | objectId _ => .objectId
  | dateTime _ => .dateTime
  | timestamp _ _ => .timestamp
  | binary _ _ => .binary
  | decimal128 _ => .decimal128
  | regex _ _ => .regularExpression
  | code _ => .javaScriptCode
  | codeWithScope _ _ => .javaScriptCodeWithScope
  | symbol _ => .symbol
  | dbPointer _ _ => .dbPointer
  | undefined => .undefined
  | minKey => .minKey
  | maxKey => .maxKey

/-- The elements of an array; other values have none. -/
def items : Value → List Value
  | array items => items
  | _ => []

/-- The fields of a document. -/
def fields? : Value → Option Document
  | document fields => some fields
  | _ => none

end Value

end Dossier
