import Dossier.Edit.Slot
import Dossier.Query

/-!
# Positions in update paths

A step of an update path is a key, `$` for the element that the query matched, or `$[name]` for every
element that the bindings of `name` accept.

* **`Step`**, `Step.ofSegment`;
* **`Scope`**: what the positional steps refer to, the conditions and bindings of the query and the
  document as it was before the first update;
* `Scope.position`: the first element that alone, in place of its array, passes the conditions on
  the array and below it;
* **`Scope.slots`**: the slots that a step names in a value.
-/

namespace Dossier

/-- One step of an update path. -/
inductive Step where
  | key (key : String)
  | matched
  | bound (placeholder : String)
  deriving DecidableEq, Repr

/-- The step that a segment writes. -/
def Step.ofSegment (segment : String) : Step :=
  match segment.toList with
  | ['$'] => .matched
  | '$' :: '[' :: rest =>
    if rest.getLast? = some ']' then .bound (String.ofList rest.dropLast) else .key segment
  | _ => .key segment

/-- The steps of a dotted update path. -/
def Step.ofPath (path : String) : List Step := (Dotted.segments path).map ofSegment

/-- What positional steps refer to. -/
structure Scope where
  conditions : List Condition := []
  bindings : List Binding := []
  /-- The document before the first update. -/
  before : Document := []

namespace Scope

/-- The conditions on a path or below it. -/
def conditionsOn (scope : Scope) (path : Path) : List Condition :=
  scope.conditions.filter fun c => path.isPrefixOf (Dotted.segments c.field)

/-- The document before the first update, with the array at `path` cut down to one element. -/
def narrowed (scope : Scope) (path : Path) (item : Value) : Document :=
  (scope.before.replaceAt? path (.array [item])).getD scope.before

/-- The position of the matched element in the array at `path`. -/
def position (scope : Scope) (path : Path) : Except UpdateError Nat :=
  let conditions := scope.conditionsOn path
  let found := match scope.before.at? path with
    | some (.array items) =>
      if conditions.isEmpty then none
      else items.findIdx? fun item => Condition.allHold conditions (scope.narrowed path item)
    | _ => none
  match found with
  | some index => .ok index
  | none => .error (.unmatchedPosition (Dotted.join path))

/-- The bindings of a placeholder. -/
def bindingsOf (scope : Scope) (placeholder : String) : List Binding :=
  scope.bindings.filter (·.placeholder == placeholder)

end Scope

/-- Whether a binding accepts a document: some value it reaches is alike to the bound one. -/
def Binding.accepts (b : Binding) (d : Document) : Bool :=
  (d.reach (Dotted.segments b.field)).any (·.alike b.value)

/-- Whether every binding accepts an element; only documents are accepted. -/
def Binding.allAccept (bindings : List Binding) : Value → Bool
  | .document fields => bindings.all (·.accepts fields)
  | _ => false

/-- The positions of the elements that pass a test, counted from `start`. -/
def positionsFrom (start : Nat) (test : Value → Bool) : List Value → List Nat
  | [] => []
  | v :: rest =>
    if test v then start :: positionsFrom (start + 1) test rest
    else positionsFrom (start + 1) test rest

/-- The slots that a step names in a value, which is at `path` in the document. A placeholder has to
be bound as soon as there is an element to test. -/
def Scope.slots (scope : Scope) (path : Path) : Step → Value → Except UpdateError (List Slot)
  | .key key, .array _ =>
    match Numeral.index? key with
    | some index => .ok [.index index]
    | none => .error (.keyInArray key (Dotted.join path))
  | .key key, _ => .ok [.key key]
  | .matched, .array _ => (scope.position path).map fun index => [.index index]
  | .bound placeholder, .array items =>
    let bindings := scope.bindingsOf placeholder
    if bindings.isEmpty && !items.isEmpty then .error (.unboundPlaceholder placeholder)
    else .ok ((positionsFrom 0 (Binding.allAccept bindings) items).map .index)
  | _, _ => .error (.positionOutsideArray (Dotted.join path))

end Dossier
