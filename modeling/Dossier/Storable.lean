import Dossier.Error
import Dossier.Extended.Restored
import Dossier.Extended.Written

/-!
# Typed data as values

* **`ToValue`**, **`FromValue`**: writing a datum as a value and reading it back; both can fail;
* `Storable`: both ways;
* `FromValue.fields`: the parts of a record, by name from a document or by position from an array.

Values and documents give up their extended forms both ways: when they are written, what is no
complete form stays as it is; when they are read, it is a failure.

Integers of 64 bits are read from either integer kind, integers of 32 bits from either when they
fit; doubles are never read as integers. Unsigned integers are written in the smallest integer kind
that holds their whole type, 64-bit ones only when they fit.
-/

namespace Dossier

/-- Data that can be written as a value. -/
class ToValue (α : Type) where
  toValue : α → Except StoreError Value

/-- Data that can be read from a value. -/
class FromValue (α : Type) where
  fromValue : Value → Except StoreError α

/-- Data that can be stored. -/
class Storable (α : Type) extends ToValue α, FromValue α

export ToValue (toValue)
export FromValue (fromValue)

/-- A conversion failure. -/
def unconvertible {α : Type} (cause : ConversionError) : Except StoreError α :=
  .error (.serialization cause)

/-! ## Writing -/

instance : ToValue Value := ⟨fun v => .ok v.written⟩
instance : ToValue Document := ⟨fun d => .ok (Value.document d).written⟩
instance : ToValue Unit := ⟨fun _ => .ok .null⟩
instance : ToValue Bool := ⟨fun b => .ok (.bool b)⟩
instance : ToValue Int32 := ⟨fun n => .ok (.int32 n)⟩
instance : ToValue Int64 := ⟨fun n => .ok (.int64 n)⟩
instance : ToValue UInt8 := ⟨fun n => .ok (.int32 (Int32.ofNat n.toNat))⟩
instance : ToValue UInt32 := ⟨fun n => .ok (.int64 (Int64.ofNat n.toNat))⟩
instance : ToValue Float := ⟨fun x => .ok (.double x)⟩
instance : ToValue Float32 := ⟨fun x => .ok (.double x.toFloat)⟩
instance : ToValue Char := ⟨fun c => .ok (.string c.toString)⟩
instance : ToValue String := ⟨fun text => .ok (.string text)⟩
instance : ToValue ObjectId := ⟨fun id => .ok (.objectId id)⟩

instance : ToValue UInt64 where
  toValue n :=
    match Width.int64? n.toNat with
    | some n => .ok (.int64 n)
    | none => unconvertible (.outOfRange n.toNat)

instance {α : Type} [ToValue α] : ToValue (Option α) where
  toValue
    | none => .ok .null
    | some a => toValue a

instance {α : Type} [ToValue α] : ToValue (List α) where
  toValue as := (as.mapM toValue).map .array

/-- An identity is written as the object id, the integer or the text that it consists of. -/
instance : ToValue Identity where
  toValue
    | .object id => toValue id
    | .integer n => toValue n
    | .uuid id => toValue id.text

/-- An identity is written in its stored form. -/
theorem Identity.toValue_eq (id : Identity) : ToValue.toValue id = .ok id.toValue := by
  cases id <;> rfl

/-! ## Reading -/

/-- Reads back a value, whose extended forms need not be complete. -/
def restore (v : Value) : Except StoreError Value :=
  match v.restored? false with
  | some v => .ok v
  | none => unconvertible .malformedForm

instance : FromValue Value := ⟨restore⟩

instance : FromValue Document where
  fromValue v := do
    match ← restore v with
    | .document fields => return fields
    | v => unconvertible (.unexpected v.kind)

instance : FromValue Int64 where
  fromValue
    | .int32 n => .ok n.toInt64
    | .int64 n => .ok n
    | v => unconvertible (.unexpected v.kind)

instance : FromValue Int32 where
  fromValue
    | .int32 n => .ok n
    | .int64 n =>
      match Width.int32? n.toInt with
      | some n => .ok n
      | none => unconvertible (.outOfRange n.toInt)
    | v => unconvertible (.unexpected v.kind)

/-- A text is read from a text, and from generic bytes that are UTF-8. -/
instance : FromValue String where
  fromValue v :=
    match v.text? with
    | some text => .ok text
    | none => unconvertible (.unexpected v.kind)

instance {α : Type} [FromValue α] : FromValue (List α) where
  fromValue
    | .array items => items.mapM fromValue
    | v => unconvertible (.unexpected v.kind)

namespace FromValue

/-- The parts of a record with the given field names. -/
def fields (names : List String) : Value → Except StoreError (List Value)
  | .document fields => names.mapM fun name =>
    match Entries.find? fields name with
    | some v => .ok v
    | none => unconvertible (.missingField name)
  | .array items =>
    if names.length ≤ items.length then .ok (items.take names.length)
    else unconvertible (.missingField ((names.drop items.length).headD ""))
  | v => unconvertible (.unexpected v.kind)

end FromValue

/-- An integer is an integer identity, a text a UUID or an object id, and the extended form of an
object id is that id. -/
instance : FromValue Identity where
  fromValue
    | .int32 n => .ok (.integer n.toInt64)
    | .int64 n => .ok (.integer n)
    | .objectId id => .ok (.object id)
    | .string text =>
      match Identity.guess? text with
      | some id => .ok id
      | none => unconvertible .notAnIdentity
    | .document fields => do
      match ← restore (.document fields) with
      | .objectId id => return .object id
      | _ => unconvertible .notAnIdentity
    | v => unconvertible (.unexpected v.kind)

instance : Storable Value where
instance : Storable Document where
instance : Storable Identity where

end Dossier
