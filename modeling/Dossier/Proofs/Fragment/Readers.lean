import Dossier.Proofs.Edit.Path
import Dossier.Proofs.Fragment.Calls
import Dossier.Mongo.Update

/-!
# Readers of fragments

Backends read fragments in four ways: they test documents, translate filters, translate updates, and
change documents. Every reader gives up on an operator with a foreign operand.

* **`FragmentError`**: why a reader gives up;
* `FilterFragment.holds`, **`FilterFragment.allHold`**: tests of a document; tests of elements turn a
  failure into a refusal;
* **`Mongo.filterOf`**, **`Mongo.updateOf`**: translations;
* `UpdateFragment.effect`, **`UpdateFragment.act`**: the change of a slot;
* **`Fragments.ofCalls_readable`**: no reader gives up on what calls record.
-/

namespace Dossier

/-- Why fragments cannot be read. -/
inductive FragmentError where
  | notAComparison (op : FilterOp)
  | cannotTake (op : UpdateOp) (operand : UpdateOperand)
  /-- The update can be read, but does not fit the document. -/
  | update (cause : UpdateError)

/-- The wording of a failure to read fragments. -/
def FragmentError.message : FragmentError → String
  | notAComparison op => op.name ++ " is not a value comparison"
  | cannotTake op operand => op.name ++ " cannot take operand " ++ operand.outline.render
  | update cause => cause.message

/-! ## Tests of documents -/

namespace FilterFragment

mutual

/-- Whether a document passes a test. -/
def holds : FilterFragment → Document → Except FragmentError Bool
  | bare field op, d => .ok (!(d.reach (Dotted.segments field)).isEmpty == (op = .exists_))
  | value field op operand, d =>
    match op.relation? with
    | some relation => .ok (d.compareAt (Dotted.segments field) operand relation)
    | none => .error (.notAComparison op)
  | set field op operands, d =>
    .ok (operands.any (d.equalsAt (Dotted.segments field)) == (op = .contains))
  | element field _ tests, d =>
    .ok ((d.elementsAt (Dotted.segments field)).any fun e => (allHold tests e).toOption.getD false)

/-- Whether a document passes all tests, up to the first one that it does not pass. -/
def allHold : List FilterFragment → Document → Except FragmentError Bool
  | [], _ => .ok true
  | f :: rest, d => do
    if ← holds f d then allHold rest d else return false

end

/-- Whether a document passes all tests; failures are refusals. -/
def accept (tests : List FilterFragment) (d : Document) : Bool :=
  (allHold tests d).toOption.getD false

end FilterFragment

mutual

theorem Condition.holds_fragment (c : Condition) (d : Document) :
    c.fragment.holds d = .ok (c.holds d) := by
  match c with
  | .compare field relation operand =>
    rw [Condition.fragment, FilterFragment.holds, Relation.relation?_op, Condition.holds]
  | .present field expected => cases expected <;> rfl
  | .member field operands expected => cases expected <;> rfl
  | .element field conditions =>
    have helement : (fun e => (FilterFragment.allHold (Condition.fragments conditions) e).toOption.getD
        false) = Condition.allHold conditions := by
      funext e
      rw [Condition.allHold_fragments conditions e]
      rfl
    rw [Condition.fragment, FilterFragment.holds, Condition.holds, helement]

theorem Condition.allHold_fragments (cs : List Condition) (d : Document) :
    FilterFragment.allHold (Condition.fragments cs) d = .ok (Condition.allHold cs d) := by
  match cs with
  | [] => rfl
  | c :: rest =>
    rw [Condition.fragments, FilterFragment.allHold, Condition.holds_fragment c d,
      Condition.allHold_fragments rest d, Condition.allHold]
    cases c.holds d <;> rfl

end

/-! ## Translations -/

namespace Mongo

mutual

/-- The query document of a test. -/
def test : FilterFragment → Except FragmentError Document
  | .bare field op => .ok (onField field "$exists" (.bool (op = .exists_)))
  | .value field op operand =>
    match op.relation? with
    | some relation => .ok (onField field (comparisonOperator relation) operand)
    | none => .error (.notAComparison op)
  | .set field op operands =>
    .ok (onField field (membershipOperator (op = .contains)) (.array operands))
  | .element field _ fragments => do
    return onField field "$elemMatch" (.document (conjunction (← tests fragments)))

/-- The query documents of tests. -/
def tests : List FilterFragment → Except FragmentError (List Document)
  | [] => .ok []
  | f :: rest => do return (← test f) :: (← tests rest)

end

/-- The query document of filters. -/
def filterOf (fragments : List FilterFragment) : Except FragmentError Document :=
  (tests fragments).map conjunction

/-- The operator and the operand of an update. -/
def changeOf (op : UpdateOp) (operand : UpdateOperand) : Except FragmentError (String × Value) :=
  match op, operand with
  | .addOrOverwrite, .value v => .ok ("$set", v)
  | .remove, _ => .ok ("$unset", .string "")
  | .addIfNotExist, .value v => .ok ("$addToSet", v)
  | .overwriteIfGreater, .value v => .ok ("$max", v)
  | .overwriteIfLower, .value v => .ok ("$min", v)
  | .incrementNumericalValue, .amount a => .ok ("$inc", a.toValue)
  | .multiplyNumericalValue, .amount a => .ok ("$mul", a.toValue)
  | .removeFirstFromArray, _ => .ok ("$pop", .int32 (-1))
  | .removeLastFromArray, _ => .ok ("$pop", .int32 1)
  | .removeFromArray, .value v => .ok ("$pull", v)
  | .removeFromArray, .matching fragments =>
    (filterOf fragments).map fun d => ("$pull", .document d)
  | .addToArray, .value v => .ok ("$push", v)
  | op, operand => .error (.cannotTake op operand)

/-- Adds one update to an update document. -/
def addUpdateOf (compiled : Document) (u : UpdateFragment) : Except FragmentError Document := do
  let (operator, operand) ← changeOf u.op u.operand
  return compiled.insert operator (.document ((operands compiled operator).insert u.field operand))

/-- The update document of updates. -/
def updateOf (updates : List UpdateFragment) : Except FragmentError Document :=
  updates.foldlM addUpdateOf []

mutual

theorem test_fragment (c : Condition) : test c.fragment = .ok (condition c) := by
  match c with
  | .compare field relation operand =>
    rw [Condition.fragment, test, Relation.relation?_op, condition]
  | .present field expected => cases expected <;> rfl
  | .member field operands expected => cases expected <;> rfl
  | .element field conditions =>
    rw [Condition.fragment, test, tests_fragments conditions, condition]
    rfl

theorem tests_fragments (cs : List Condition) :
    tests (Condition.fragments cs) = .ok (conditions cs) := by
  match cs with
  | [] => rfl
  | c :: rest =>
    rw [Condition.fragments, tests, test_fragment c, tests_fragments rest, conditions]
    rfl

end

theorem filterOf_fragments (cs : List Condition) :
    filterOf (Condition.fragments cs) = .ok (filter cs) := by
  rw [filterOf, tests_fragments]
  rfl

theorem changeOf_operand (c : Change) : changeOf c.op c.operand = .ok (change c) := by
  cases c
  case pullMatching conditions =>
    rw [Change.op, Change.operand, changeOf, filterOf_fragments]
    rfl
  all_goals rfl

theorem addUpdateOf_fragment (compiled : Document) (u : Update) :
    addUpdateOf compiled u.fragment = .ok (addUpdate compiled u) := by
  rw [addUpdateOf, Update.fragment, changeOf_operand]
  rfl

theorem updateOf_fragments (us : List Update) :
    updateOf (us.map Update.fragment) = .ok (update us) := by
  rw [updateOf, update]
  generalize ([] : Document) = compiled
  induction us generalizing compiled with
  | nil => rfl
  | cons u rest ih =>
    rw [List.map_cons, List.foldlM_cons, addUpdateOf_fragment, List.foldl_cons]
    exact ih (addUpdate compiled u)

end Mongo

/-! ## Changes of documents -/

/-- Whether a removal from an array takes an element. -/
def UpdateOperand.takes : UpdateOperand → Value → Bool
  | .value v, item => item.alike v
  | .matching fragments, .document fields => FilterFragment.accept fragments fields
  | _, _ => false

namespace UpdateFragment

/-- What an update does to a slot that holds `existing`. -/
def effect (u : UpdateFragment) (existing : Option Value) : Except FragmentError Effect :=
  match u.op, u.operand with
  | .remove, _ => .ok .clear
  | .addOrOverwrite, .value v => .ok (.fill v)
  | .addIfNotExist, .value v => do
    let items ← (Change.growing u.op u.field existing).mapError .update
    return if items.any (·.alike v) then .keep else .fill (.array (items ++ [v]))
  | .addToArray, .value v => do
    let items ← (Change.growing u.op u.field existing).mapError .update
    return .fill (.array (items ++ [v]))
  | .overwriteIfGreater, .value v => .ok (Change.overwriteIf .gt v existing)
  | .overwriteIfLower, .value v => .ok (Change.overwriteIf .lt v existing)
  | .incrementNumericalValue, .amount a => do
    let result ← (Arithmetic.sum.result u.field existing a).mapError .update
    return .fill result.toValue
  | .multiplyNumericalValue, .amount a => do
    let result ← (Arithmetic.product.result u.field existing a).mapError .update
    return .fill result.toValue
  | .removeFirstFromArray, _ => (Change.shorten u.op u.field List.tail existing).mapError .update
  | .removeLastFromArray, _ =>
    (Change.shorten u.op u.field List.dropLast existing).mapError .update
  | .removeFromArray, operand =>
    (Change.shorten u.op u.field (List.filter (!operand.takes ·)) existing).mapError .update
  | op, operand => .error (.cannotTake op operand)

/-- What an update does to a slot. -/
def act (u : UpdateFragment) (v : Value) (slot : Slot) : Except FragmentError (Value × Bool) := do
  let effect ← u.effect (v.inSlot? slot)
  (v.perform slot effect).mapError .update

end UpdateFragment

theorem Change.takes_operand_pullMatching (conditions : List Condition) :
    (Change.pullMatching conditions).operand.takes = Change.passes conditions := by
  funext v
  cases v
  case document fields =>
    rw [Change.operand, UpdateOperand.takes, FilterFragment.accept, Condition.allHold_fragments,
      Change.passes]
    rfl
  all_goals rfl

theorem mapError_bind {ε ε' α β : Type} (f : ε → ε') (x : Except ε α) (g : α → Except ε β) :
    (x >>= g).mapError f = x.mapError f >>= fun a => (g a).mapError f := by
  cases x <;> rfl

theorem Update.effect_fragment (u : Update) (existing : Option Value) :
    u.fragment.effect existing = (u.change.effect u.field existing).mapError .update := by
  obtain ⟨field, change⟩ := u
  cases change
  case pullMatching conditions =>
    have heffect : (Update.fragment ⟨field, .pullMatching conditions⟩).effect existing =
        (Change.shorten .removeFromArray field
          (List.filter (!(Change.pullMatching conditions).operand.takes ·)) existing).mapError
            .update := rfl
    rw [heffect, Change.takes_operand_pullMatching]
    rfl
  case addUnique | append | increment | multiply =>
    rw [Change.effect, mapError_bind]
    rfl
  all_goals rfl

theorem Update.act_fragment (u : Update) (v : Value) (slot : Slot) :
    u.fragment.act v slot = (u.act v slot).mapError .update := by
  rw [UpdateFragment.act, Update.effect_fragment, Update.act, mapError_bind]

/-! ## What calls record -/

theorem Query.exists_allHold_of_occurs {q : Query} {tests : List FilterFragment}
    (h : ∀ f ∈ tests, q.fragments.Occurs f) (d : Document) :
    ∃ b, FilterFragment.allHold tests d = .ok b := by
  obtain ⟨cs, rfl⟩ : ∃ cs, tests = Condition.fragments cs := by
    induction tests with
    | nil => exact ⟨[], rfl⟩
    | cons f rest ih =>
      rw [List.forall_mem_cons] at h
      obtain ⟨c, rfl⟩ := Query.exists_of_occurs h.1
      obtain ⟨cs, rfl⟩ := ih h.2
      exact ⟨c :: cs, rfl⟩
  exact ⟨_, Condition.allHold_fragments cs d⟩

namespace Fragments

/-- **What calls record can be read.** Every fragment has an operand that its operator takes, at any
depth. Both translations succeed, and so does every test of a document, those of array elements and
of any part of the filters included; an update fails only if it does not fit the document. The
results are those of the query that the same calls build. -/
theorem ofCalls_readable (calls : List Call) :
    (∀ f, (ofCalls calls).Occurs f → f.Fits) ∧
      (∀ u ∈ (ofCalls calls).updates, u.Fits) ∧
      Mongo.filterOf (ofCalls calls).filters = .ok (Mongo.filter (Query.ofCalls calls).conditions) ∧
      Mongo.updateOf (ofCalls calls).updates = .ok (Mongo.update (Query.ofCalls calls).updates) ∧
      (∀ d, FilterFragment.allHold (ofCalls calls).filters d =
        .ok ((Query.ofCalls calls).accepts d)) ∧
      (∀ tests, (∀ f ∈ tests, (ofCalls calls).Occurs f) →
        ∀ d, ∃ b, FilterFragment.allHold tests d = .ok b) ∧
      ∀ u ∈ (ofCalls calls).updates, ∀ v slot cause, u.act v slot = .error cause →
        ∃ misfit, cause = .update misfit := by
  rw [← Query.fragments_ofCalls]
  generalize Query.ofCalls calls = q
  have hfilters : q.fragments.filters = Condition.fragments q.conditions :=
    (Condition.fragments_eq_map q.conditions).symm
  refine ⟨fun f => Query.fits_of_occurs, ?_, ?_, Mongo.updateOf_fragments q.updates, ?_,
    fun tests => Query.exists_allHold_of_occurs, ?_⟩
  · intro u hu
    obtain ⟨u, -, rfl⟩ := List.mem_map.mp hu
    exact u.fits_fragment
  · rw [hfilters, Mongo.filterOf_fragments]
  · intro d
    rw [hfilters, Condition.allHold_fragments, Query.accepts]
  · intro u hu v slot cause h
    obtain ⟨u, -, rfl⟩ := List.mem_map.mp hu
    rw [Update.act_fragment] at h
    cases hact : u.act v slot with
    | error misfit =>
      rw [hact] at h
      cases h
      exact ⟨misfit, rfl⟩
    | ok result =>
      rw [hact] at h
      cases h

end Fragments

end Dossier
