import Dossier.Error
import Dossier.Value.Equality

/-!
# Slots

A slot is one place inside a document or an array: under a key, or at a position.

* **`Slot`**, `Value.inSlot?`: a slot and what it holds;
* `Value.enter?`: the value in which a path goes on, created when it may be;
* `Value.put`: fills a slot, padding an array with nulls up to it;
* **`Effect`**, `Value.perform`: what happens to a slot, and whether that makes a difference.
-/

namespace Dossier

/-- A place inside a document or an array. -/
inductive Slot where
  | key (key : String)
  | index (index : Nat)
  deriving DecidableEq, Repr

/-- The segment that names a slot. -/
def Slot.segment : Slot → String
  | key text => text
  | index position => toString position

namespace Value

/-- What a slot holds. -/
def inSlot? : Value → Slot → Option Value
  | document fields, .key key => Entries.find? fields key
  | array items, .index index => items[index]?
  | _, _ => none

/-- The value in which a path goes on after a slot. A missing key is an empty document when the path
`creates`; otherwise, and at a missing position, the path leads nowhere. -/
def enter? (creates : Bool) : Value → Slot → Except UpdateError (Option Value)
  | document fields, .key key =>
    match Entries.find? fields key with
    | some child => .ok (some child)
    | none => .ok (if creates then some (document []) else none)
  | array items, .index index => .ok items[index]?
  | v, _ => .error (.impassable v.kind)

/-- A list with `new` at `index`, filled up with nulls. The position is a natural number, so a length of
`index + 1` beyond the machine word, or beyond what memory holds, is a list here and no failure. -/
def putItem (items : List Value) (index : Nat) (new : Value) : List Value :=
  (items ++ List.replicate (index + 1 - items.length) null).set index new

/-- Fills a slot. -/
def put : Value → Slot → Value → Except UpdateError Value
  | document fields, .key key, new => .ok (document (Entries.insert fields key new))
  | array items, .index index, new => .ok (array (putItem items index new))
  | v, _, _ => .error (.unassignable v.kind)

/-- Empties a slot: a key disappears, a position becomes null. Tells whether anything was there. -/
def clear : Value → Slot → Value × Bool
  | document fields, .key key =>
    (document (Entries.erase fields key), Entries.contains fields key)
  | array items, .index index =>
    if items[index]?.any (!same · null) then (array (items.set index null), true)
    else (array items, false)
  | v, _ => (v, false)

end Value

/-- What a change does to the slot at the end of its path. -/
inductive Effect where
  | keep
  | fill (v : Value)
  | clear

/-- Whether a slot already holds a value that is the same. -/
def Slot.holds (v : Value) (slot : Slot) (new : Value) : Bool :=
  (v.inSlot? slot).any (·.same new)

/-- Performs an effect on a slot, and tells whether it made a difference. Filling a slot with what it
holds already leaves it alone. -/
def Value.perform (v : Value) (slot : Slot) : Effect → Except UpdateError (Value × Bool)
  | .keep => .ok (v, false)
  | .clear => .ok (v.clear slot)
  | .fill new =>
    if slot.holds v new then .ok (v, false) else (v.put slot new).map (·, true)

end Dossier
