import Dossier.Json
import Dossier.Number.Width
import Dossier.Text.Hex
import Dossier.Text.Numeral
import Dossier.Value

/-!
# Document identities

A document is identified by an object id, a 64-bit integer or a UUID. Identities of different
schemes are never equal.

* **`Identity`**, `Identity.Scheme`, and `Uuid`;
* `Identity.text`, **`Identity.parse?`**: the text form of each scheme and its reader;
* **`Identity.toValue`**: the stored form; a UUID is stored as its text;
* `Identity.toJson`: the JSON form; an object id becomes an object with the key `$oid`.
-/

namespace Dossier

namespace ObjectId

/-- Twenty-four lower-case hexadecimal digits. -/
def text (id : ObjectId) : String := String.ofList (Hex.encode 24 id.toBitVec.toNat)

/-- Reads exactly twenty-four hexadecimal digits of either case. -/
def parse? (text : String) : Option ObjectId :=
  (Hex.decodeExact? 24 text.toList).map fun n => ⟨BitVec.ofNat 96 n⟩

end ObjectId

/-- A universally unique identifier. -/
structure Uuid where
  toBitVec : BitVec 128
  deriving DecidableEq, Hashable, Repr

namespace Uuid

/-- The identifier of zero bits. -/
def nil : Uuid := ⟨0⟩

/-- The sizes of the groups between hyphens. -/
def groups : List Nat := [8, 4, 4, 4, 12]

/-- Cuts `digits` into groups of the given sizes with hyphens between them. -/
def hyphenate : List Nat → List Char → List Char
  | [], digits => digits
  | [_], digits => digits
  | size :: sizes, digits => digits.take size ++ '-' :: hyphenate sizes (digits.drop size)

/-- Lower-case digits in hyphenated groups. -/
def text (uuid : Uuid) : String :=
  String.ofList (hyphenate groups (Hex.encode 32 uuid.toBitVec.toNat))

/-- Removes the hyphens between groups of the given sizes; refuses any other shape. -/
def unhyphenate? : List Nat → List Char → Option (List Char)
  | [], cs => if cs.isEmpty then some [] else none
  | [size], cs => if cs.length = size then some cs else none
  | size :: sizes, cs =>
    match cs.drop size with
    | '-' :: rest =>
      if (cs.take size).length = size then (unhyphenate? sizes rest).map (cs.take size ++ ·)
      else none
    | _ => none

/-- Reads digits in hyphenated groups. -/
def parseHyphenated? (cs : List Char) : Option Uuid :=
  ((unhyphenate? groups cs).bind (Hex.decodeExact? 32)).map fun n => ⟨BitVec.ofNat 128 n⟩

/-- Removes the resource name prefix, in any case. -/
def withoutResourceName? (cs : List Char) : Option (List Char) :=
  if (cs.take 9).map Char.toLower = "urn:uuid:".toList then some (cs.drop 9) else none

/-- Reads thirty-two digits, or the hyphenated form, which may stand in braces or after
`urn:uuid:`. -/
def parse? (text : String) : Option Uuid :=
  let cs := text.toList
  if cs.length = 32 then (Hex.decode? cs).map fun n => ⟨BitVec.ofNat 128 n⟩
  else if cs.length = 38 ∧ cs.head? = some '{' ∧ cs.getLast? = some '}' then
    parseHyphenated? cs.tail.dropLast
  else match withoutResourceName? cs with
    | some rest => parseHyphenated? rest
    | none => parseHyphenated? cs

end Uuid

/-- The identity of a document. -/
inductive Identity where
  | object (id : ObjectId)
  | integer (n : Int64)
  | uuid (id : Uuid)
  deriving DecidableEq, Hashable

/-- The kind of an identity. -/
inductive Identity.Scheme where
  | object | integer | uuid
  deriving DecidableEq, Repr

/-- The name of a scheme in messages. -/
def Identity.Scheme.name : Identity.Scheme → String
  | .object => "object"
  | .integer => "integer"
  | .uuid => "opaque"

/-- The scheme of a given name. -/
def Identity.Scheme.ofName? (name : String) : Option Identity.Scheme :=
  [object, integer, uuid].find? (·.name == name)

namespace Identity

/-- The scheme of an identity. -/
def scheme : Identity → Scheme
  | object _ => .object
  | integer _ => .integer
  | uuid _ => .uuid

/-- The identity of zero bits, which stands in until one is known. -/
def empty : Scheme → Identity
  | .object => object .zero
  | .integer => integer 0
  | .uuid => uuid .nil

/-- The canonical text. -/
def text : Identity → String
  | object id => id.text
  | integer n => toString n.toInt
  | uuid id => id.text

/-- Reads an identity of the given scheme. -/
def parse? : Scheme → String → Option Identity
  | .object, text => (ObjectId.parse? text).map object
  | .integer, text => ((Numeral.integer? text).bind Width.int64?).map integer
  | .uuid, text => (Uuid.parse? text).map uuid

/-- Reads an identity whose scheme is not known: a UUID if the text is one, else an object id. -/
def guess? (text : String) : Option Identity :=
  match Uuid.parse? text with
  | some id => some (uuid id)
  | none => (ObjectId.parse? text).map object

/-- The stored form. -/
def toValue : Identity → Value
  | object id => .objectId id
  | integer n => .int64 n
  | uuid id => .string id.text

/-- The JSON form. -/
def toJson : Identity → Json
  | object id => .object [("$oid", .string id.text)]
  | integer n => .ofInt64 n
  | uuid id => .string id.text

/-- The millisecond since 1970 in which an object id was made; other schemes do not tell. -/
def createdMillis? : Identity → Option Nat
  | object id => some (id.seconds * 1000)
  | _ => none

end Identity

end Dossier
