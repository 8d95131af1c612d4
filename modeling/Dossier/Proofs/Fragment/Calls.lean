import Dossier.Proofs.Fragment.Basic
import Dossier.Query.Build
import Mathlib.Data.Set.List

/-!
# Calls and the fragments that they record

A query is built by calls. Each of them checks its operator against the operand it was given and then
records fragments, or refuses and records nothing.

* **`Call`**: the calls; those that take a query for array elements carry the calls that build it;
* `Query.perform`, `Query.ofCalls`: the calls as functions on queries;
* **`Fragments.perform`**, **`Fragments.ofCalls`**: the same calls on fragments, where nothing but the
  checks of operators keeps an operator from a foreign operand;
* **`Query.fragments_ofCalls`**: both record the same;
* `UpdateFragment.Recorded`: the updates that calls record.
-/

namespace Dossier

/-- A call on a query that is being built. What it needs of a codebook is that of the moment. -/
inductive Call : Type 1 where
  | filterById (id : Identity) (op : FilterOp)
  | filterId (field : String) (id : Identity) (op : FilterOp)
  | filterIds (field : String) (ids : List Identity) (op : FilterOp)
  | filter (book : Codebook) (field : String) (v : Value) (op : FilterOp)
  | filterValues (book : Codebook) (field : String) (vs : List Value) (op : FilterOp)
  | filterExists (field : String) (op : FilterOp)
  | filterElementById (array : String) (id : Identity)
  | filterElement (array : String) (element : List Call)
  | filterOn {δ α : Type} [ToValue α] (book : Codebook) (field : Field δ α) (a : α) (op : FilterOp)
  | filterValuesOn {δ α : Type} [ToValue α] (book : Codebook) (field : Field δ α) (as : List α)
      (op : FilterOp)
  | filterExistsOn {δ α : Type} [ToValue α] (field : Field δ α) (op : FilterOp)
  | update (book : Codebook) (field : String) (v : Value) (op : UpdateOp)
  | updateAmount (field : String) (v : Value) (op : UpdateOp)
  | updateElement (book : Codebook) (element : ElementRef) (v : Value) (op : UpdateOp)
  | updateNested (book : Codebook) (outer inner : ElementRef) (v : Value) (op : UpdateOp)
  | pullById (array : String) (id : Identity)
  | pullNestedById (array inner : String) (id : Identity)
  | pullMatching (array : String) (element : List Call)
  | updateOn {δ α : Type} [ToValue α] (book : Codebook) (field : Field δ α) (a : α) (op : UpdateOp)
  | updateAmountOn {δ α : Type} [ToValue α] (field : Field δ α) (a : α) (op : UpdateOp)
  | reset

/-! ## Calls on queries -/

namespace Query

mutual

/-- The query after a call, unless the call is refused. -/
def perform (q : Query) : Call → Option Query
  | .filterById id op => q.filterById? id op
  | .filterId field id op => q.filterId? field id op
  | .filterIds field ids op => q.filterIds? field ids op
  | .filter book field v op => q.filter? book field v op
  | .filterValues book field vs op => q.filterValues? book field vs op
  | .filterExists field op => q.filterExists? field op
  | .filterElementById array id => q.filterElementById? array id
  | .filterElement array element => q.filterElement? array (performAll empty element)
  | @Call.filterOn _ _ _ book field a op => q.filterOn? book field a op
  | @Call.filterValuesOn _ _ _ book field as op => q.filterValuesOn? book field as op
  | @Call.filterExistsOn _ _ _ field op => q.filterExistsOn? field op
  | .update book field v op => q.update? book field v op
  | .updateAmount field v op => q.updateAmount? field v op
  | .updateElement book element v op => q.updateElement? book element v op
  | .updateNested book outer inner v op => q.updateNested? book outer inner v op
  | .pullById array id => q.pullById? array id
  | .pullNestedById array inner id => q.pullNestedById? array inner id
  | .pullMatching array element => q.pullMatching? array (performAll empty element)
  | @Call.updateOn _ _ _ book field a op => q.updateOn? book field a op
  | @Call.updateAmountOn _ _ _ field a op => q.updateAmountOn? field a op
  | .reset => some q.cleared

/-- The query after calls; a refused call leaves it as it is. -/
def performAll (q : Query) : List Call → Query
  | [] => q
  | call :: rest => performAll ((perform q call).getD q) rest

end

/-- The query that calls build. -/
def ofCalls (calls : List Call) : Query := performAll empty calls

end Query

/-! ## Calls on fragments -/

namespace FilterFragment

/-- The fragment of an operator with one operand; existence ignores the operand. -/
def ofOperand? (field : String) (op : FilterOp) (operand : Value) : Option FilterFragment :=
  if op.isExistence then some (presence field (op = .exists_))
  else if op.isValue then some (value field op operand)
  else none

/-- The fragment of an operator with a list of operands: existence ignores them, membership takes all,
and any other operator takes the first. -/
def ofOperands? (field : String) (op : FilterOp) (operands : List Value) : Option FilterFragment :=
  if op.isExistence then some (presence field (op = .exists_))
  else match operands with
    | [] => none
    | first :: _ =>
      if op.isMembership then some (membership field operands (op = .contains))
      else ofOperand? field op first

/-- The fragment of an existence operator. -/
def ofExistence? (field : String) (op : FilterOp) : Option FilterFragment :=
  if op.isExistence then some (presence field (op = .exists_)) else none

/-- The tests of an element that pick an identity. -/
def identified (id : Identity) : List FilterFragment := [value "_id" .equals id.toValue]

end FilterFragment

namespace UpdateFragment

/-- The fragment of an arithmetic operator. -/
def ofAmount? (field : String) (op : UpdateOp) (v : Value) : Option UpdateFragment :=
  if op.isNumeric then (Amount.ofValue? v).map fun a => ⟨field, op, .amount a⟩ else none

/-- The fragment of an operator with a value; arithmetic needs an amount, and removals ignore the
value. -/
def ofOperand? (field : String) (op : UpdateOp) (v : Value) : Option UpdateFragment :=
  match op with
  | .remove | .removeFirstFromArray | .removeLastFromArray => some ⟨field, op, .none⟩
  | .incrementNumericalValue | .multiplyNumericalValue => ofAmount? field op v
  | op => some ⟨field, op, .value v⟩

end UpdateFragment

namespace Fragments

variable (F : Fragments)

/-- Adds a filter at the end. -/
def addFilter (f : FilterFragment) : Fragments := { F with filters := F.filters ++ [f] }

/-- Adds an update at the end. -/
def addUpdate (u : UpdateFragment) : Fragments := { F with updates := F.updates ++ [u] }

/-- Adds bindings at the end. -/
def addBindings (bs : List Binding) : Fragments := { F with bindings := F.bindings ++ bs }

/-- Tests elements of an array, if there are tests. -/
def addElement? (array : String) (tests : List FilterFragment) : Option Fragments :=
  if tests.isEmpty then none else some (F.addFilter (.element array .arrayElementField tests))

/-- Removes the elements that pass all the tests. -/
def addPull (array : String) (tests : List FilterFragment) : Fragments :=
  F.addUpdate ⟨array, .removeFromArray, .matching tests⟩

/-- Removes the elements that pass all the tests, if there are tests. -/
def addPull? (array : String) (tests : List FilterFragment) : Option Fragments :=
  if tests.isEmpty then none else some (F.addPull array tests)

/-- Compares a field with a datum. -/
def filterOn? {δ α : Type} [ToValue α] (book : Codebook) (field : Field δ α) (a : α)
    (op : FilterOp) : Option Fragments :=
  if op.isValue then do
    let v ← Query.typedOperand? book field a
    (FilterFragment.ofOperand? field.path op v).map F.addFilter
  else none

/-- Compares a field with a list of data. -/
def filterValuesOn? {δ α : Type} [ToValue α] (book : Codebook) (field : Field δ α) (as : List α)
    (op : FilterOp) : Option Fragments :=
  match as with
  | [] => none
  | first :: _ =>
    if op.isMembership then do
      let vs ← as.mapM (Query.typedOperand? book field)
      (FilterFragment.ofOperands? field.path op vs).map F.addFilter
    else F.filterOn? book field first op

/-- Overwrites a field, always or if the datum is greater or lower. -/
def updateOn? {δ α : Type} [ToValue α] (book : Codebook) (field : Field δ α) (a : α)
    (op : UpdateOp) : Option Fragments :=
  if Query.typedUpdates.contains op then do
    let v ← Query.typedOperand? book field a
    (UpdateFragment.ofOperand? field.path op v).map F.addUpdate
  else none

mutual

/-- The fragments after a call, unless the call is refused. -/
def perform (F : Fragments) : Call → Option Fragments
  | .filterById id op => (FilterFragment.ofOperand? "_id" op id.toValue).map F.addFilter
  | .filterId field id op => (FilterFragment.ofOperand? field op id.toValue).map F.addFilter
  | .filterIds field ids op =>
    (FilterFragment.ofOperands? field op (ids.map Identity.toValue)).map F.addFilter
  | .filter book field v op => do
    let v ← (book.encodeOperand field v).toOption
    (FilterFragment.ofOperand? field op v).map F.addFilter
  | .filterValues book field vs op => do
    let vs ← (vs.mapM (book.encodeOperand field)).toOption
    (FilterFragment.ofOperands? field op vs).map F.addFilter
  | .filterExists field op => (FilterFragment.ofExistence? field op).map F.addFilter
  | .filterElementById array id => F.addElement? array (FilterFragment.identified id)
  | .filterElement array element => F.addElement? array (performAll {} element).filters
  | @Call.filterOn _ _ _ book field a op => F.filterOn? book field a op
  | @Call.filterValuesOn _ _ _ book field as op => F.filterValuesOn? book field as op
  | @Call.filterExistsOn _ _ _ field op => (FilterFragment.ofExistence? field.path op).map F.addFilter
  | .update book field v op => do
    let v ← (book.encodeOperand field v).toOption
    (UpdateFragment.ofOperand? field op v).map F.addUpdate
  | .updateAmount field v op => (UpdateFragment.ofAmount? field op v).map F.addUpdate
  | .updateElement book element v op => do
    let field := Query.elementPath element.array
    let v ← (book.encodeOperand field v).toOption
    (UpdateFragment.ofOperand? field op v).map
      (F.addBindings [Query.bindingTo "elem" element.id]).addUpdate
  | .updateNested book outer inner v op => do
    let field := Query.nestedPath inner.array
    let v ← (book.encodeOperand field v).toOption
    (UpdateFragment.ofOperand? field op v).map
      (F.addBindings [Query.bindingTo "elema" outer.id,
        Query.bindingTo "elemb" inner.id]).addUpdate
  | .pullById array id => some (F.addPull array (FilterFragment.identified id))
  | .pullNestedById array inner id =>
    some (F.addPull (array ++ ".$." ++ inner) (FilterFragment.identified id))
  | .pullMatching array element => F.addPull? array (performAll {} element).filters
  | @Call.updateOn _ _ _ book field a op => F.updateOn? book field a op
  | @Call.updateAmountOn _ _ _ field a op => do
    let v ← (toValue a).toOption
    (UpdateFragment.ofAmount? field.path op v).map F.addUpdate
  | .reset => some {}

/-- The fragments after calls; a refused call leaves them as they are. -/
def performAll (F : Fragments) : List Call → Fragments
  | [] => F
  | call :: rest => performAll ((perform F call).getD F) rest

end

/-- The fragments that calls record. -/
def ofCalls (calls : List Call) : Fragments := performAll {} calls

end Fragments

/-! ## Both record the same -/

theorem Condition.map_fragment_ofOperand? (field : String) (op : FilterOp) (v : Value) :
    (Condition.ofOperand? field op v).map Condition.fragment =
      FilterFragment.ofOperand? field op v := by
  cases op <;> rfl

theorem Condition.map_fragment_ofOperands? (field : String) (op : FilterOp) (vs : List Value) :
    (Condition.ofOperands? field op vs).map Condition.fragment =
      FilterFragment.ofOperands? field op vs := by
  cases op <;> cases vs <;> rfl

theorem Condition.map_fragment_ofExistence? (field : String) (op : FilterOp) :
    (Condition.ofExistence? field op).map Condition.fragment =
      FilterFragment.ofExistence? field op := by
  cases op <;> rfl

theorem Update.map_fragment_ofOperator? (field : String) (op : UpdateOp) (v : Value) :
    (Change.ofOperator? op v).map (fun change => (⟨field, change⟩ : Update).fragment) =
      UpdateFragment.ofOperand? field op v := by
  cases op
  case incrementNumericalValue => exact Option.map_map ..
  case multiplyNumericalValue => exact Option.map_map ..
  all_goals rfl

theorem Update.bind_fragment_arithmetic? (field : String) (op : UpdateOp) (v : Value) :
    ((Amount.ofValue? v).bind fun a => (Change.arithmetic? op a).map fun change =>
      (⟨field, change⟩ : Update).fragment) = UpdateFragment.ofAmount? field op v := by
  rw [UpdateFragment.ofAmount?]
  cases Amount.ofValue? v <;> cases op <;> rfl

namespace Query

variable (q : Query)

theorem fragments_addCondition (c : Condition) :
    (q.addCondition c).fragments = q.fragments.addFilter c.fragment := by
  simp [fragments, addCondition, Fragments.addFilter]

theorem fragments_addUpdate (u : Update) :
    (q.addUpdate u).fragments = q.fragments.addUpdate u.fragment := by
  simp [fragments, addUpdate, Fragments.addUpdate]

theorem map_fragments_addCondition {c? : Option Condition} {f? : Option FilterFragment}
    (h : c?.map Condition.fragment = f?) :
    (c?.map q.addCondition).map fragments = f?.map q.fragments.addFilter := by
  subst h
  cases c? with
  | none => rfl
  | some c => exact congrArg some (fragments_addCondition q c)

theorem map_fragments_addUpdate {field : String} {change? : Option Change}
    {u? : Option UpdateFragment}
    (h : change?.map (fun change => (⟨field, change⟩ : Update).fragment) = u?) :
    (change?.map fun change => q.addUpdate ⟨field, change⟩).map fragments =
      u?.map q.fragments.addUpdate := by
  subst h
  cases change? with
  | none => rfl
  | some change => exact congrArg some (fragments_addUpdate q ⟨field, change⟩)

theorem map_fragments_filterOn? {δ α : Type} [ToValue α] (book : Codebook) (field : Field δ α)
    (a : α) (op : FilterOp) :
    (q.filterOn? book field a op).map fragments = q.fragments.filterOn? book field a op := by
  rw [filterOn?, Fragments.filterOn?]
  cases op.isValue
  · rfl
  cases typedOperand? book field a with
  | none => rfl
  | some v => exact map_fragments_addCondition q (Condition.map_fragment_ofOperand? ..)

theorem map_fragments_filterValuesOn? {δ α : Type} [ToValue α] (book : Codebook)
    (field : Field δ α) (as : List α) (op : FilterOp) :
    (q.filterValuesOn? book field as op).map fragments =
      q.fragments.filterValuesOn? book field as op := by
  cases as with
  | nil => rfl
  | cons first rest =>
    rw [filterValuesOn?, Fragments.filterValuesOn?]
    cases op.isMembership
    · exact map_fragments_filterOn? q book field first op
    cases (first :: rest).mapM (typedOperand? book field) with
    | none => rfl
    | some vs => exact map_fragments_addCondition q (Condition.map_fragment_ofOperands? ..)

theorem map_fragments_updateAmount? (field : String) (v : Value) (op : UpdateOp) :
    (q.updateAmount? field v op).map fragments =
      (UpdateFragment.ofAmount? field op v).map q.fragments.addUpdate := by
  rw [updateAmount?, ← Update.bind_fragment_arithmetic?]
  cases Amount.ofValue? v with
  | none => rfl
  | some a => exact map_fragments_addUpdate q rfl

theorem map_fragments_filterElement? (array : String) (element : Query) :
    (q.filterElement? array element).map fragments =
      q.fragments.addElement? array element.fragments.filters := by
  have hempty : element.fragments.filters.isEmpty = element.conditions.isEmpty := List.isEmpty_map
  rw [filterElement?, Fragments.addElement?, hempty]
  split
  · rfl
  · rw [Option.map_some, fragments_addCondition, Condition.fragment, Condition.fragments_eq_map]
    rfl

theorem map_fragments_pullMatching? (array : String) (element : Query) :
    (q.pullMatching? array element).map fragments =
      q.fragments.addPull? array element.fragments.filters := by
  have hempty : element.fragments.filters.isEmpty = element.conditions.isEmpty := List.isEmpty_map
  rw [pullMatching?, Fragments.addPull?, hempty]
  split
  · rfl
  · rw [Option.map_some, fragments_addUpdate, Update.fragment, Change.operand,
      Condition.fragments_eq_map]
    rfl

theorem map_fragments_updateOn? {δ α : Type} [ToValue α] (book : Codebook) (field : Field δ α)
    (a : α) (op : UpdateOp) :
    (q.updateOn? book field a op).map fragments = q.fragments.updateOn? book field a op := by
  rw [updateOn?, Fragments.updateOn?]
  cases typedUpdates.contains op
  · rfl
  cases typedOperand? book field a with
  | none => rfl
  | some v => exact map_fragments_addUpdate q (Update.map_fragment_ofOperator? ..)

mutual

/-- **A call records the same fragments** on a query and on its fragments. -/
theorem map_fragments_perform (q : Query) (call : Call) :
    (q.perform call).map fragments = q.fragments.perform call := by
  match call with
  | .filterById id op =>
    exact map_fragments_addCondition q (Condition.map_fragment_ofOperand? "_id" op id.toValue)
  | .filterId field id op =>
    exact map_fragments_addCondition q (Condition.map_fragment_ofOperand? field op id.toValue)
  | .filterIds field ids op =>
    exact map_fragments_addCondition q (Condition.map_fragment_ofOperands? field op _)
  | .filter book field v op =>
    rw [perform, Fragments.perform, filter?]
    cases (book.encodeOperand field v).toOption with
    | none => rfl
    | some v => exact map_fragments_addCondition q (Condition.map_fragment_ofOperand? ..)
  | .filterValues book field vs op =>
    rw [perform, Fragments.perform, filterValues?]
    cases (vs.mapM (book.encodeOperand field)).toOption with
    | none => rfl
    | some vs => exact map_fragments_addCondition q (Condition.map_fragment_ofOperands? ..)
  | .filterExists field op =>
    exact map_fragments_addCondition q (Condition.map_fragment_ofExistence? field op)
  | .filterElementById array id => exact congrArg some (fragments_addCondition q _)
  | .filterElement array element =>
    have helement := fragments_performAll empty element
    rw [perform, map_fragments_filterElement?, helement]
    rfl
  | @Call.filterOn _ _ _ book field a op => exact map_fragments_filterOn? q book field a op
  | @Call.filterValuesOn _ _ _ book field as op =>
    exact map_fragments_filterValuesOn? q book field as op
  | @Call.filterExistsOn _ _ _ field op =>
    exact map_fragments_addCondition q (Condition.map_fragment_ofExistence? field.path op)
  | .update book field v op =>
    rw [perform, Fragments.perform, update?]
    cases (book.encodeOperand field v).toOption with
    | none => rfl
    | some v => exact map_fragments_addUpdate q (Update.map_fragment_ofOperator? ..)
  | .updateAmount field v op => exact map_fragments_updateAmount? q field v op
  | .updateElement book element v op =>
    rw [perform, Fragments.perform, updateElement?]
    cases (book.encodeOperand (elementPath element.array) v).toOption with
    | none => rfl
    | some v =>
      exact map_fragments_addUpdate (q.addBindings _) (Update.map_fragment_ofOperator? ..)
  | .updateNested book outer inner v op =>
    rw [perform, Fragments.perform, updateNested?]
    cases (book.encodeOperand (nestedPath inner.array) v).toOption with
    | none => rfl
    | some v =>
      exact map_fragments_addUpdate (q.addBindings _) (Update.map_fragment_ofOperator? ..)
  | .pullById array id => exact congrArg some (fragments_addUpdate q _)
  | .pullNestedById array inner id => exact congrArg some (fragments_addUpdate q _)
  | .pullMatching array element =>
    have helement := fragments_performAll empty element
    rw [perform, map_fragments_pullMatching?, helement]
    rfl
  | @Call.updateOn _ _ _ book field a op => exact map_fragments_updateOn? q book field a op
  | @Call.updateAmountOn _ _ _ field a op =>
    rw [perform, Fragments.perform, updateAmountOn?]
    cases (toValue a).toOption with
    | none => rfl
    | some v => exact map_fragments_updateAmount? q field.path v op
  | .reset => rfl

/-- **Calls record the same fragments** on a query and on its fragments. -/
theorem fragments_performAll (q : Query) (calls : List Call) :
    (q.performAll calls).fragments = q.fragments.performAll calls := by
  match calls with
  | [] => rfl
  | call :: rest =>
    rw [performAll, Fragments.performAll, ← map_fragments_perform q call,
      fragments_performAll _ rest]
    cases q.perform call <;> rfl

end

/-- **The fragments that calls record are those of the query that they build.** -/
theorem fragments_ofCalls (calls : List Call) :
    (ofCalls calls).fragments = Fragments.ofCalls calls := fragments_performAll empty calls

end Query

/-- Whether calls can record an update. -/
def UpdateFragment.Recorded (f : UpdateFragment) : Prop :=
  ∃ calls, f ∈ (Fragments.ofCalls calls).updates

theorem UpdateFragment.Recorded.exists_updates {fs : List UpdateFragment}
    (h : ∀ f ∈ fs, f.Recorded) : ∃ us : List Update, fs = us.map Update.fragment := by
  have hrange : fs ∈ Set.range (List.map Update.fragment) := by
    rw [Set.range_list_map]
    intro f hf
    obtain ⟨calls, hcalls⟩ := h f hf
    rw [← Query.fragments_ofCalls] at hcalls
    obtain ⟨u, -, hu⟩ := List.mem_map.mp hcalls
    exact ⟨u, hu⟩
  obtain ⟨us, hus⟩ := hrange
  exact ⟨us, hus.symm⟩

end Dossier
