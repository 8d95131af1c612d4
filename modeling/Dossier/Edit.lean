import Dossier.Edit.Effect
import Dossier.Edit.Scope

/-!
# Editing documents

The updates of a query are applied to a document one after the other. Positional steps always refer
to the document as it was before the first of them, and a failure leaves no changed document.

* **`Value.edit`**: follows the steps of a path and acts on every slot it leads to;
* `Update.apply`: one update;
* **`Query.edit`**: all updates of a query, and whether one of them made a difference;
* **`Query.seed`**: the document that an update inserts when nothing matches: the equalities of the
  query with its updates on top, and an identity in front when there is none.
-/

namespace Dossier

/-- Acts on every slot that a path leads to, from a value at `path`. Tells whether any act made a
difference. -/
def Value.edit (scope : Scope) (creates : Bool)
    (act : Value → Slot → Except UpdateError (Value × Bool)) :
    List Step → Path → Value → Except UpdateError (Value × Bool)
  | [], _, v => .ok (v, false)
  | step :: rest, path, v => do
    let slots ← scope.slots path step v
    slots.foldlM (fun (v, changed) slot =>
      if rest.isEmpty then (act v slot).map fun (v, acted) => (v, changed || acted)
      else do
        match ← v.enter? creates slot with
        | none => return (v, changed)
        | some child =>
          let (child, acted) ← edit scope creates act rest (path ++ [slot.segment]) child
          return (← v.put slot child, changed || acted)) (v, false)

/-- Applies one update. -/
def Update.apply (scope : Scope) (u : Update) (v : Value) : Except UpdateError (Value × Bool) :=
  v.edit scope u.change.creates
    (fun v slot => u.change.effect u.field (v.inSlot? slot) >>= v.perform slot)
    (Step.ofPath u.field) []

namespace Query

/-- What the positional steps of the query's updates refer to in a document. -/
def scope (q : Query) (d : Document) : Scope := ⟨q.conditions, q.bindings, d⟩

/-- Applies every update in order. -/
def edit (q : Query) (d : Document) : Except UpdateError (Document × Bool) := do
  let (v, changed) ← q.updates.foldlM (fun (v, changed) u => do
    let (v, acted) ← u.apply (q.scope d) v
    return (v, changed || acted)) (Value.document d, false)
  return (v.fields?.getD d, changed)

/-- Sets the field of an equality. -/
def seedCondition (v : Value) : Condition → Except UpdateError Value
  | .compare field .equals operand =>
    (v.edit {} true (fun v slot => (v.put slot operand).map (·, true)) (Step.ofPath field) []).map
      Prod.fst
  | _ => .ok v

/-- The document that the query's equalities describe. -/
def described (q : Query) : Except UpdateError Document := do
  let v ← q.conditions.foldlM seedCondition (Value.document [])
  return v.fields?.getD []

/-- The document that an update inserts when nothing matches; `fresh` identifies it unless the query
does. -/
def seed (q : Query) (fresh : ObjectId) : Except UpdateError Document := do
  let (d, _) ← q.edit (← q.described)
  return if d.contains "_id" then d else ("_id", .objectId fresh) :: d

end Query

end Dossier
