import Dossier.Identity
import Dossier.Number.Bytes
import Dossier.Number.Calendar.Moment
import Dossier.Number.Decimal128.Numeral
import Dossier.Number.Double.Numeral
import Dossier.Text.Base64

/-!
# Extended forms

A value of a kind that JSON lacks can be given as a document whose key says what it stands for, such
as a date as `$date` with a text. This is its extended form.

* **`Form`**, `Form.key`, `Form.ofKey?`: the keys and what they stand for;
* **`Form.ofText?`**: the value of a form that holds a text;
* `Value.ofPattern?`, `Value.ofEncoded?`: values that are given in two parts;
* `Value.ofObjectIdBytes?`, `Value.ofDecimalBytes?`: values that are given by their bytes.
-/

namespace Dossier

/-- What an extended form stands for. -/
inductive Form where
  | objectId | symbol | int32 | int64 | double | decimal | decimalBytes | binary | uuid | code
  /-- The variables of a code, beside it. -/
  | scope
  | timestamp | regex | dbPointer | dateTime | minKey | maxKey | undefined
  deriving DecidableEq, Repr

namespace Form

/-- The key of a form. -/
def key : Form → String
  | objectId => "$oid"
  | symbol => "$symbol"
  | int32 => "$numberInt"
  | int64 => "$numberLong"
  | double => "$numberDouble"
  | decimal => "$numberDecimal"
  | decimalBytes => "$numberDecimalBytes"
  | binary => "$binary"
  | uuid => "$uuid"
  | code => "$code"
  | scope => "$scope"
  | timestamp => "$timestamp"
  | regex => "$regularExpression"
  | dbPointer => "$dbPointer"
  | dateTime => "$date"
  | minKey => "$minKey"
  | maxKey => "$maxKey"
  | undefined => "$undefined"

/-- Every form. -/
def all : List Form :=
  [objectId, symbol, int32, int64, double, decimal, decimalBytes, binary, uuid, code, scope,
    timestamp, regex, dbPointer, dateTime, minKey, maxKey, undefined]

/-- The form of a key. -/
def ofKey? (key : String) : Option Form := all.find? (·.key == key)

theorem ofKey?_key (form : Form) : ofKey? form.key = some form := by
  cases form <;> decide +kernel

end Form

namespace Value

/-- A decimal by its sixteen bytes. -/
def ofDecimalBytes? (bytes : List UInt8) : Option Value :=
  if bytes.length = 16 then some (decimal128 (BitVec.ofNat 128 (Bytes.toNat bytes))) else none

/-- An object id by its twelve bytes. -/
def ofObjectIdBytes? (bytes : List UInt8) : Option Value :=
  if bytes.length = 12 then some (objectId ⟨BitVec.ofNat 96 (Bytes.toNat bytes)⟩) else none

/-- A UUID as binary data. -/
def ofUuid (uuid : Uuid) : Value := binary 4 (Bytes.ofNat 16 uuid.toBitVec.toNat)

/-- The options of a pattern in the order in which they are kept. -/
def sortedOptions (options : String) : String :=
  String.ofList (options.toList.mergeSort fun a b => a.toNat ≤ b.toNat)

/-- A regular expression; neither part may hold the character that ends a stored text. -/
def ofPattern? (pattern options : String) : Option Value :=
  if pattern.toList.contains '\x00' ∨ options.toList.contains '\x00' then none
  else some (regex pattern (sortedOptions options))

/-- Binary data by Base64 and a subtype of two hexadecimal digits. -/
def ofEncoded? (base64 subtype : String) : Option Value := do
  match ← Hex.bytes? subtype.toList with
  | [subtype] => return binary subtype (← Base64.decode? base64.toList)
  | _ => failure

end Value

/-- The value of a form that holds a text. -/
def Form.ofText? : Form → String → Option Value
  | objectId, text => (ObjectId.parse? text).map .objectId
  | symbol, text => some (.symbol text)
  | int32, text => ((Numeral.integer? text).bind Width.int32?).map .int32
  | int64, text => ((Numeral.integer? text).bind Width.int64?).map .int64
  | double, text => (Double.ofText? text).map .double
  | decimal, text => (Decimal128.ofText? text).map fun d => .decimal128 d.toBits
  | uuid, text => (Uuid.parse? text).map .ofUuid
  | code, text => some (.code text)
  | dateTime, text =>
    (((Moment.ofText? text).bind Moment.millis?).bind Width.int64?).map .dateTime
  | _, _ => none

end Dossier
