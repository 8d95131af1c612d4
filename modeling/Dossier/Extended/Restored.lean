import Dossier.Extended.Form

/-!
# Values as they are read back

When a value is read, the first key of a document that is the key of an extended form decides: the
document stands for the value of that form, and a content that does not fit is a failure. Fields
before that key have to be readable but are dropped; fields after it are not looked at, unless a
`complete` form is wanted, after which nothing may follow.

* `Value.text?`, `Value.parts?`: the contents of forms;
* **`Form.read?`**: the value of a form with its content;
* **`Value.restored?`**: the value that is read back.
-/

namespace Dossier

variable (complete : Bool)

namespace Value

/-- A text, or generic bytes that are UTF-8. -/
def text? : Value → Option String
  | string text => some text
  | binary 0 bytes => String.fromUTF8? ⟨bytes.toArray⟩
  | _ => none

/-- An integer of either kind. -/
def integer? : Value → Option Int
  | int32 n => some n.toInt
  | int64 n => some n.toInt
  | _ => none

/-- Bytes: generic ones, those of a text, or a list of them. -/
def bytes? : Value → Option (List UInt8)
  | binary 0 bytes => some bytes
  | string text => some text.toUTF8.toList
  | array items => items.mapM fun item => item.integer?.bind Width.uint8?
  | _ => none

/-- The parts of a content with the given names: a document of just these fields, or a list with
these values in front. -/
def parts? (names : List String) : Value → Option (List Value)
  | document fields =>
    if fields.length = names.length then names.mapM (Entries.find? fields) else none
  | array items =>
    if items.length = names.length ∨ (!complete ∧ names.length < items.length) then
      some (items.take names.length)
    else none
  | _ => none

/-- An object id, which may be in extended form itself. -/
def objectId? : Value → Option ObjectId
  | objectId id => some id
  | v =>
    match v.parts? complete [Form.objectId.key] with
    | some [v] => v.text?.bind ObjectId.parse?
    | _ => none

/-- An instant: a number of milliseconds, the same in extended form, or a text. -/
def dateTime? (v : Value) : Option Value :=
  match v.integer?, v.parts? true [Form.int64.key] with
  | some n, _ => (Width.int64? n).map dateTime
  | none, some [v] =>
    ((v.text?.bind Numeral.integer?).bind Width.int64?).map dateTime
  | none, _ => v.text?.bind Form.dateTime.ofText?

end Value

/-- The value of a form with its content. -/
def Form.read? (form : Form) (v : Value) : Option Value :=
  match form with
  | objectId =>
    match v with
    | .binary 0 bytes => Value.ofObjectIdBytes? bytes
    | .string text => form.ofText? text
    | _ => none
  | decimalBytes => v.bytes?.bind Value.ofDecimalBytes?
  | binary =>
    match v.parts? complete ["base64", "subType"] with
    | some [base64, subtype] => do Value.ofEncoded? (← base64.text?) (← subtype.text?)
    | _ => none
  | timestamp =>
    match v.parts? complete ["t", "i"] with
    | some [seconds, increment] => do
      return .timestamp (← seconds.integer?.bind Width.uint32?)
        (← increment.integer?.bind Width.uint32?)
    | _ => none
  | regex =>
    match v.parts? complete ["pattern", "options"] with
    | some [pattern, options] => do Value.ofPattern? (← pattern.text?) (← options.text?)
    | _ => none
  | dbPointer =>
    match v.parts? complete ["$ref", "$id"] with
    | some [space, id] => do return .dbPointer (← space.text?) (← id.objectId? complete)
    | _ => none
  | dateTime => v.dateTime?
  | minKey => if v.integer? = some 1 then some .minKey else none
  | maxKey => if v.integer? = some 1 then some .maxKey else none
  | undefined =>
    match v with
    | .bool true => some .undefined
    | _ => none
  | scope => none
  | form => v.text?.bind form.ofText?

mutual

/-- The value that is read back. -/
def Value.restored? : Value → Option Value
  | .array items => (Value.restoredItems? items).map .array
  | .document fields => Value.restoredFields? [] fields
  | .codeWithScope source scope =>
    match Value.restoredFields? [] scope with
    | some (.document scope) => some (.codeWithScope source scope)
    | _ => none
  | .regex pattern options => some (.regex pattern (Value.sortedOptions options))
  | v => some v

/-- The values that are read back. -/
def Value.restoredItems? : List Value → Option (List Value)
  | [] => some []
  | v :: rest =>
    match Value.restored? v with
    | some v => (Value.restoredItems? rest).map (v :: ·)
    | none => none

/-- The value that fields after those in `before` stand for. -/
def Value.restoredFields? (before : Document) : List (String × Value) → Option Value
  | [] => some (.document before)
  | (key, v) :: rest =>
    match Form.ofKey? key, rest with
    | none, rest =>
      match Value.restored? v with
      | some v => Value.restoredFields? (before.insert key v) rest
      | none => none
    | some .code, (other, scope) :: rest =>
      if other = Form.scope.key ∧ (rest.isEmpty ∨ !complete) then
        match v.text?, Value.restored? scope with
        | some source, some (.document scope) => some (.codeWithScope source scope)
        | _, _ => none
      else none
    | some .scope, (other, source) :: rest =>
      if other = Form.code.key ∧ (rest.isEmpty ∨ !complete) then
        match source.text?, Value.restored? v with
        | some source, some (.document scope) => some (.codeWithScope source scope)
        | _, _ => none
      else none
    | some form, rest => if rest.isEmpty ∨ !complete then form.read? complete v else none

end

end Dossier
