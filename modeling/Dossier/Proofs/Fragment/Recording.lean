import Dossier.Edit.Scope
import Dossier.Proofs.Fragment.Calls

/-!
# Recording

A call checks what it is given and records step by step, in place, and answers whether it was
accepted. A step that comes before a check would leave a trace of a refused call.

* **`Fragments.record`**, `Fragments.recordAll`: the calls as they record in place;
* **`Fragments.run_record`**: what they leave and answer is what `Fragments.perform` gives;
* **`Fragments.record_appends`**: a refused call leaves everything as it was, an accepted one
  appends one test, or one update with the bindings of its placeholders; only `reset` takes anything
  away;
* **`Fragments.recordAll_appends`**: what calls without `reset` leave begins with what was there,
  and has one entry more for every accepted one.
-/

namespace Dossier

namespace Fragments

/-! ## Calls that record in place -/

/-- Records a test. -/
def pushFilter (f : FilterFragment) : StateM Fragments Unit := modify (·.addFilter f)

/-- Records an update. -/
def pushUpdate (u : UpdateFragment) : StateM Fragments Unit := modify (·.addUpdate u)

/-- Records a binding. -/
def pushBinding (b : Binding) : StateM Fragments Unit := modify (·.addBindings [b])

/-- Forgets everything. -/
def clear : StateM Fragments Unit := set ({} : Fragments)

/-- Records the test that an operator makes with one operand. -/
def recordSingle (field : String) (v : Value) (op : FilterOp) : StateM Fragments Bool := do
  if op.isExistence then
    pushFilter (.presence field (op = .exists_))
    return true
  if op.isValue then
    pushFilter (.value field op v)
    return true
  return false

/-- Records the test that an operator makes with a list of operands. -/
def recordValues (field : String) (vs : List Value) (op : FilterOp) : StateM Fragments Bool := do
  if op.isExistence then
    pushFilter (.presence field (op = .exists_))
    return true
  match vs with
  | [] => return false
  | first :: _ =>
    if op.isMembership then
      pushFilter (.membership field vs (op = .contains))
      return true
    recordSingle field first op

/-- Records a test of presence. -/
def recordExistence (field : String) (op : FilterOp) : StateM Fragments Bool := do
  if !op.isExistence then return false
  pushFilter (.presence field (op = .exists_))
  return true

/-- Records an update, if there is one. -/
def recordUpdate (u? : Option UpdateFragment) : StateM Fragments Bool := do
  let some u := u? | return false
  pushUpdate u
  return true

/-- Records a removal of the elements of an identity. -/
def recordPull (path : String) (id : Identity) : StateM Fragments Bool := do
  pushUpdate ⟨path, .removeFromArray, .matching (FilterFragment.identified id)⟩
  return true

/-- Records a test of a field with a datum. -/
def recordOn {δ α : Type} [ToValue α] (book : Codebook) (field : Field δ α) (a : α)
    (op : FilterOp) : StateM Fragments Bool := do
  if !op.isValue then return false
  let some v := Query.typedOperand? book field a | return false
  recordSingle field.path v op

/-- Records a test of a field with a list of data. -/
def recordValuesOn {δ α : Type} [ToValue α] (book : Codebook) (field : Field δ α) (as : List α)
    (op : FilterOp) : StateM Fragments Bool := do
  let first :: _ := as | return false
  if !op.isMembership then return ← recordOn book field first op
  let some vs := as.mapM (Query.typedOperand? book field) | return false
  recordValues field.path vs op

mutual

/-- Records a call and answers whether it was accepted. -/
def record : Call → StateM Fragments Bool
  | .filterById id op => recordSingle "_id" id.toValue op
  | .filterId field id op => recordSingle field id.toValue op
  | .filterIds field ids op => recordValues field (ids.map Identity.toValue) op
  | .filter book field v op => do
    let some v := (book.encodeOperand field v).toOption | return false
    recordSingle field v op
  | .filterValues book field vs op => do
    let some vs := (vs.mapM (book.encodeOperand field)).toOption | return false
    recordValues field vs op
  | .filterExists field op => recordExistence field op
  | .filterElementById array id => do
    pushFilter (.element array .arrayElementField (FilterFragment.identified id))
    return true
  | .filterElement array element => do
    let tests := ((recordAll element).run {}).2.filters
    if tests.isEmpty then return false
    pushFilter (.element array .arrayElementField tests)
    return true
  | @Call.filterOn _ _ _ book field a op => recordOn book field a op
  | @Call.filterValuesOn _ _ _ book field as op => recordValuesOn book field as op
  | @Call.filterExistsOn _ _ _ field op => recordExistence field.path op
  | .update book field v op => do
    let some v := (book.encodeOperand field v).toOption | return false
    recordUpdate (UpdateFragment.ofOperand? field op v)
  | .updateAmount field v op => recordUpdate (UpdateFragment.ofAmount? field op v)
  | .updateElement book element v op => do
    let field := Query.elementPath element.array
    let some u := (book.encodeOperand field v).toOption.bind (UpdateFragment.ofOperand? field op)
      | return false
    pushBinding (Query.bindingTo "elem" element.id)
    pushUpdate u
    return true
  | .updateNested book outer inner v op => do
    let field := Query.nestedPath inner.array
    let some u := (book.encodeOperand field v).toOption.bind (UpdateFragment.ofOperand? field op)
      | return false
    pushBinding (Query.bindingTo "elema" outer.id)
    pushBinding (Query.bindingTo "elemb" inner.id)
    pushUpdate u
    return true
  | .pullById array id => recordPull array id
  | .pullNestedById array inner id => recordPull (array ++ ".$." ++ inner) id
  | .pullMatching array element => do
    let tests := ((recordAll element).run {}).2.filters
    if tests.isEmpty then return false
    pushUpdate ⟨array, .removeFromArray, .matching tests⟩
    return true
  | @Call.updateOn _ _ _ book field a op => do
    if !Query.typedUpdates.contains op then return false
    recordUpdate
      ((Query.typedOperand? book field a).bind (UpdateFragment.ofOperand? field.path op))
  | @Call.updateAmountOn _ _ _ field a op => do
    let some v := (toValue a).toOption | return false
    recordUpdate (UpdateFragment.ofAmount? field.path op v)
  | .reset => do
    clear
    return true

/-- Records calls and gives their answers. -/
def recordAll : List Call → StateM Fragments (List Bool)
  | [] => return []
  | call :: rest => do return (← record call) :: (← recordAll rest)

end

/-! ## What they leave and answer -/

/-- What a call leaves and answers, if it is accepted with `next` and refused without. -/
def answered (F : Fragments) (next : Option Fragments) : Bool × Fragments :=
  (next.isSome, next.getD F)

variable (F : Fragments)

theorem run_recordSingle (field : String) (v : Value) (op : FilterOp) :
    (recordSingle field v op).run F =
      F.answered ((FilterFragment.ofOperand? field op v).map F.addFilter) := by
  rw [recordSingle, FilterFragment.ofOperand?]
  cases op.isExistence <;> cases op.isValue <;> rfl

theorem run_recordValues (field : String) (vs : List Value) (op : FilterOp) :
    (recordValues field vs op).run F =
      F.answered ((FilterFragment.ofOperands? field op vs).map F.addFilter) := by
  cases vs with
  | nil =>
    rw [recordValues, FilterFragment.ofOperands?]
    cases op.isExistence <;> rfl
  | cons first rest =>
    rw [recordValues, FilterFragment.ofOperands?]
    cases op.isExistence
    case true => rfl
    cases op.isMembership
    · exact run_recordSingle F field first op
    · rfl

theorem run_recordExistence (field : String) (op : FilterOp) :
    (recordExistence field op).run F =
      F.answered ((FilterFragment.ofExistence? field op).map F.addFilter) := by
  rw [recordExistence, FilterFragment.ofExistence?]
  cases op.isExistence <;> rfl

theorem run_recordUpdate (u? : Option UpdateFragment) :
    (recordUpdate u?).run F = F.answered (u?.map F.addUpdate) := by
  cases u? <;> rfl

theorem run_recordOn {δ α : Type} [ToValue α] (book : Codebook) (field : Field δ α) (a : α)
    (op : FilterOp) :
    (recordOn book field a op).run F = F.answered (F.filterOn? book field a op) := by
  rw [recordOn, filterOn?]
  cases op.isValue
  · rfl
  cases Query.typedOperand? book field a with
  | none => rfl
  | some v => exact run_recordSingle F field.path v op

theorem run_recordValuesOn {δ α : Type} [ToValue α] (book : Codebook) (field : Field δ α)
    (as : List α) (op : FilterOp) :
    (recordValuesOn book field as op).run F = F.answered (F.filterValuesOn? book field as op) := by
  cases as with
  | nil => rfl
  | cons first rest =>
    rw [recordValuesOn, filterValuesOn?]
    cases op.isMembership
    · exact run_recordOn F book field first op
    · cases (first :: rest).mapM (Query.typedOperand? book field) with
      | none => rfl
      | some vs => exact run_recordValues F field.path vs op

theorem run_recordAll_cons (call : Call) (rest : List Call) :
    (recordAll (call :: rest)).run F =
      (((record call).run F).1 :: ((recordAll rest).run ((record call).run F).2).1,
        ((recordAll rest).run ((record call).run F).2).2) := by
  rw [recordAll]
  rfl

mutual

/-- **A call leaves and answers in place** what it gives on fragments: a refused one, nothing. -/
theorem run_record (F : Fragments) (call : Call) :
    (record call).run F = F.answered (F.perform call) := by
  match call with
  | .filterById id op => exact run_recordSingle F "_id" id.toValue op
  | .filterId field id op => exact run_recordSingle F field id.toValue op
  | .filterIds field ids op => exact run_recordValues F field _ op
  | .filter book field v op =>
    rw [record, perform]
    cases (book.encodeOperand field v).toOption with
    | none => rfl
    | some v => exact run_recordSingle F field v op
  | .filterValues book field vs op =>
    rw [record, perform]
    cases (vs.mapM (book.encodeOperand field)).toOption with
    | none => rfl
    | some vs => exact run_recordValues F field vs op
  | .filterExists field op => exact run_recordExistence F field op
  | .filterElementById array id => rfl
  | .filterElement array element =>
    rw [record, perform, run_recordAll {} element, addElement?]
    cases (performAll {} element).filters.isEmpty <;> rfl
  | @Call.filterOn _ _ _ book field a op => exact run_recordOn F book field a op
  | @Call.filterValuesOn _ _ _ book field as op => exact run_recordValuesOn F book field as op
  | @Call.filterExistsOn _ _ _ field op => exact run_recordExistence F field.path op
  | .update book field v op =>
    rw [record, perform]
    cases (book.encodeOperand field v).toOption with
    | none => rfl
    | some v => exact run_recordUpdate F _
  | .updateAmount field v op => exact run_recordUpdate F _
  | .updateElement book element v op =>
    rw [record, perform]
    cases (book.encodeOperand (Query.elementPath element.array) v).toOption with
    | none => rfl
    | some v =>
      simp only [Option.bind_some, bind]
      cases UpdateFragment.ofOperand? (Query.elementPath element.array) op v <;> rfl
  | .updateNested book outer inner v op =>
    rw [record, perform]
    cases (book.encodeOperand (Query.nestedPath inner.array) v).toOption with
    | none => rfl
    | some v =>
      simp only [Option.bind_some, bind]
      cases UpdateFragment.ofOperand? (Query.nestedPath inner.array) op v with
      | none => rfl
      | some u =>
        -- the bindings are recorded one after the other
        have hbindings (a b : Binding) :
            (F.addBindings [a]).addBindings [b] = F.addBindings [a, b] := by simp [addBindings]
        rw [Option.map_some, ← hbindings]
        rfl
  | .pullById array id => rfl
  | .pullNestedById array inner id => rfl
  | .pullMatching array element =>
    rw [record, perform, run_recordAll {} element, addPull?]
    cases (performAll {} element).filters.isEmpty <;> rfl
  | @Call.updateOn _ _ _ book field a op =>
    rw [record, perform, updateOn?]
    cases Query.typedUpdates.contains op
    · rfl
    cases Query.typedOperand? book field a with
    | none => rfl
    | some v => exact run_recordUpdate F _
  | @Call.updateAmountOn _ _ _ field a op =>
    rw [record, perform]
    cases (toValue a).toOption with
    | none => rfl
    | some v => exact run_recordUpdate F _
  | .reset => rfl

theorem run_recordAll (F : Fragments) (calls : List Call) :
    ((recordAll calls).run F).2 = F.performAll calls := by
  match calls with
  | [] => rfl
  | call :: rest =>
    rw [run_recordAll_cons, run_record F call, run_recordAll _ rest, performAll]
    rfl

end

/-- In place, a call leaves and answers what it does on a query. -/
theorem run_record_fragments (q : Query) (call : Call) :
    (record call).run q.fragments =
      ((q.perform call).isSome, ((q.perform call).getD q).fragments) := by
  rw [run_record, ← Query.map_fragments_perform, answered]
  cases q.perform call <;> rfl

end Fragments

/-! ## What an accepted call appends -/

namespace Call

/-- Whether a call asks for a test of documents. -/
def isTest : Call → Bool
  | filterById _ _ | filterId _ _ _ | filterIds _ _ _ | filter _ _ _ _ | filterValues _ _ _ _
  | filterExists _ _ | filterElementById _ _ | filterElement _ _ | filterOn _ _ _ _
  | filterValuesOn _ _ _ _ | filterExistsOn _ _ => true
  | _ => false

/-- The bindings that come with an update. -/
def bindings : Call → List Binding
  | updateElement _ element _ _ => [Query.bindingTo "elem" element.id]
  | updateNested _ outer inner _ _ =>
    [Query.bindingTo "elema" outer.id, Query.bindingTo "elemb" inner.id]
  | _ => []

theorem bindings_of_isTest {call : Call} (h : call.isTest = true) : call.bindings = [] := by
  cases call <;> first | rfl | cases h

end Call

theorem Step.ofPath_append_dot (front back : String) :
    ofPath (front ++ "." ++ back) = ofPath front ++ ofPath back := by
  rw [ofPath, Dotted.segments_append_dot, List.map_append]
  rfl

theorem Query.ofPath_elementPath (array : String) :
    Step.ofPath (elementPath array) = Step.ofPath array ++ [.bound "elem"] := by
  have hpath : elementPath array = array ++ "." ++ "$[elem]" := by
    rw [elementPath, String.append_assoc]
    rfl
  rw [hpath, Step.ofPath_append_dot]
  rfl

theorem Query.ofPath_nestedPath (inner : String) :
    Step.ofPath (nestedPath inner) =
      (Step.ofPath inner ++ [.bound "elema"]) ++ (Step.ofPath inner ++ [.bound "elemb"]) := by
  have hpath : nestedPath inner =
      (inner ++ "." ++ "$[elema]") ++ "." ++ (inner ++ "." ++ "$[elemb]") := by
    rw [nestedPath]
    simp [← String.toList_inj]
  rw [hpath, Step.ofPath_append_dot, Step.ofPath_append_dot, Step.ofPath_append_dot]
  rfl

theorem UpdateFragment.field_of_ofAmount? {field : String} {op : UpdateOp} {v : Value}
    {u : UpdateFragment} (h : ofAmount? field op v = some u) : u.field = field := by
  rw [ofAmount?] at h
  split at h
  · obtain ⟨a, -, rfl⟩ := Option.map_eq_some_iff.mp h
    rfl
  · cases h

theorem UpdateFragment.field_of_ofOperand? {field : String} {op : UpdateOp} {v : Value}
    {u : UpdateFragment} (h : ofOperand? field op v = some u) : u.field = field := by
  cases op
  case incrementNumericalValue | multiplyNumericalValue => exact field_of_ofAmount? h
  all_goals cases h; rfl

namespace Fragments

variable {F F' : Fragments} {call : Call}

@[simp] theorem addBindings_nil : F.addBindings [] = F := by simp [addBindings]

theorem exists_addFilter {f? : Option FilterFragment} (h : f?.map F.addFilter = some F') :
    ∃ f, F' = F.addFilter f := by
  obtain ⟨f, -, rfl⟩ := Option.map_eq_some_iff.mp h
  exact ⟨f, rfl⟩

theorem exists_addUpdate {u? : Option UpdateFragment} (h : u?.map F.addUpdate = some F') :
    ∃ u, F' = F.addUpdate u := by
  obtain ⟨u, -, rfl⟩ := Option.map_eq_some_iff.mp h
  exact ⟨u, rfl⟩

theorem exists_addFilter_of_filterOn? {δ α : Type} [ToValue α] {book : Codebook}
    {field : Field δ α} {a : α} {op : FilterOp} (h : F.filterOn? book field a op = some F') :
    ∃ f, F' = F.addFilter f := by
  rw [filterOn?] at h
  split at h
  · obtain ⟨v, -, h⟩ := Option.bind_eq_some_iff.mp h
    exact exists_addFilter h
  · cases h

theorem exists_addFilter_of_perform (ht : call.isTest = true) (h : F.perform call = some F') :
    ∃ f, F' = F.addFilter f := by
  cases call with
  | filterById | filterId | filterIds | filterExists | filterExistsOn => exact exists_addFilter h
  | filter | filterValues =>
    obtain ⟨v, -, h⟩ := Option.bind_eq_some_iff.mp h
    exact exists_addFilter h
  | filterElementById => exact ⟨_, (Option.some.inj h).symm⟩
  | filterElement array element =>
    rw [perform, addElement?] at h
    split at h
    · cases h
    · exact ⟨_, (Option.some.inj h).symm⟩
  | filterOn => exact exists_addFilter_of_filterOn? h
  | filterValuesOn book field as op =>
    cases as with
    | nil => cases h
    | cons first rest =>
      rw [perform, filterValuesOn?] at h
      split at h
      · obtain ⟨vs, -, h⟩ := Option.bind_eq_some_iff.mp h
        exact exists_addFilter h
      · exact exists_addFilter_of_filterOn? h
  | _ => cases ht

/-- The placeholders in the path of an update, in the order of their bindings. -/
def Placed (bindings : List Binding) (u : UpdateFragment) : Prop :=
  ∃ array, Step.ofPath u.field =
    bindings.flatMap fun b => Step.ofPath array ++ [.bound b.placeholder]

theorem exists_addUpdate_of_no_bindings {bindings : List Binding} (hb : bindings = [])
    (h : ∃ u, F' = F.addUpdate u) :
    ∃ u, F' = (F.addBindings bindings).addUpdate u ∧ (bindings ≠ [] → Placed bindings u) := by
  obtain ⟨u, rfl⟩ := h
  subst hb
  exact ⟨u, by rw [addBindings_nil], fun hne => absurd rfl hne⟩

theorem exists_addUpdate_of_perform (ht : call.isTest = false) (hr : call ≠ .reset)
    (h : F.perform call = some F') :
    ∃ u, F' = (F.addBindings call.bindings).addUpdate u ∧
      (call.bindings ≠ [] → Placed call.bindings u) := by
  cases call with
  | reset => exact absurd rfl hr
  | updateElement book element v op =>
    obtain ⟨x, -, h⟩ := Option.bind_eq_some_iff.mp h
    obtain ⟨u, hu, rfl⟩ := Option.map_eq_some_iff.mp h
    refine ⟨u, rfl, fun _ => ⟨element.array, ?_⟩⟩
    rw [UpdateFragment.field_of_ofOperand? hu, Query.ofPath_elementPath]
    simp [Call.bindings, Query.bindingTo]
  | updateNested book outer inner v op =>
    obtain ⟨x, -, h⟩ := Option.bind_eq_some_iff.mp h
    obtain ⟨u, hu, rfl⟩ := Option.map_eq_some_iff.mp h
    refine ⟨u, rfl, fun _ => ⟨inner.array, ?_⟩⟩
    rw [UpdateFragment.field_of_ofOperand? hu, Query.ofPath_nestedPath]
    simp [Call.bindings, Query.bindingTo]
  | update | updateAmountOn =>
    obtain ⟨v, -, h⟩ := Option.bind_eq_some_iff.mp h
    exact exists_addUpdate_of_no_bindings rfl (exists_addUpdate h)
  | updateAmount => exact exists_addUpdate_of_no_bindings rfl (exists_addUpdate h)
  | pullById | pullNestedById =>
    exact exists_addUpdate_of_no_bindings rfl ⟨_, (Option.some.inj h).symm⟩
  | pullMatching array element =>
    rw [perform, addPull?] at h
    split at h
    · cases h
    · exact exists_addUpdate_of_no_bindings rfl ⟨_, (Option.some.inj h).symm⟩
  | updateOn book field a op =>
    rw [perform, updateOn?] at h
    split at h
    · obtain ⟨v, -, h⟩ := Option.bind_eq_some_iff.mp h
      exact exists_addUpdate_of_no_bindings rfl (exists_addUpdate h)
    · cases h
  | _ => cases ht

/-- **Every call is all or nothing, and only appends.** A refused call leaves the fragments as they
were. An accepted one for a test appends a filter and nothing else, an accepted one for an update
appends an update and its bindings, in the order of the placeholders in its path. `reset` leaves
nothing. -/
theorem record_appends (F : Fragments) (call : Call) :
    ∃ answer F', (record call).run F = (answer, F') ∧
      (call = .reset → F' = {}) ∧
      (call ≠ .reset → answer = false → F' = F) ∧
      (call ≠ .reset → answer = true → call.isTest = true →
        ∃ f, F' = { F with filters := F.filters ++ [f] }) ∧
      (call ≠ .reset → answer = true → call.isTest = false →
        ∃ u, F' = { F with updates := F.updates ++ [u], bindings := F.bindings ++ call.bindings } ∧
          (call.bindings ≠ [] → Placed call.bindings u)) := by
  refine ⟨_, _, run_record F call, ?_, ?_, ?_, ?_⟩
  · rintro rfl
    rfl
  · intro _ hrefused
    rw [Option.isSome_eq_false_iff, Option.isNone_iff_eq_none] at hrefused
    rw [hrefused, Option.getD_none]
  · intro _ haccepted ht
    obtain ⟨F', h⟩ := Option.isSome_iff_exists.mp haccepted
    rw [h, Option.getD_some]
    exact exists_addFilter_of_perform ht h
  · intro hr haccepted ht
    obtain ⟨F', h⟩ := Option.isSome_iff_exists.mp haccepted
    rw [h, Option.getD_some]
    exact exists_addUpdate_of_perform ht hr h

/-- A call on an element of a nested array is accepted: it appends one update and two bindings, which
stand in its path in this order. -/
theorem record_appends_nested :
    let F : Fragments := { filters := [.presence "lines" true] }
    let call : Call :=
      .updateNested {} ⟨"orders", .integer 1⟩ ⟨"lines", .integer 2⟩ (.int32 5) .addOrOverwrite
    call ≠ .reset ∧ ((record call).run F).1 = true ∧ call.isTest = false ∧
      ∃ u, ((record call).run F).2 =
          ⟨[.presence "lines" true], [u],
            [Query.bindingTo "elema" (.integer 1), Query.bindingTo "elemb" (.integer 2)]⟩ ∧
        Placed call.bindings u := by
  intro F call
  have hr : call ≠ .reset := by simp [call]
  have haccepted : ((record call).run F).1 = true := by rfl
  have hbindings : call.bindings ≠ [] := List.cons_ne_nil _ _
  obtain ⟨answer, F', hrun, -, -, -, hupdate⟩ := record_appends F call
  rw [hrun] at haccepted ⊢
  obtain ⟨u, rfl, hplaced⟩ := hupdate hr haccepted rfl
  exact ⟨hr, haccepted, rfl, u, rfl, hplaced hbindings⟩

/-- The accepted ones of some calls. -/
def accepted (calls : List Call) (answers : List Bool) : List Call :=
  ((calls.zip answers).filter Prod.snd).map Prod.fst

theorem accepted_cons_true (calls : List Call) (answers : List Bool) :
    accepted (call :: calls) (true :: answers) = call :: accepted calls answers := rfl

/-- **Calls other than `reset` only append**: for every accepted one, a filter or an update, and the
bindings of its placeholders. -/
theorem recordAll_appends (F : Fragments) {calls : List Call} (hr : ∀ call ∈ calls, call ≠ .reset) :
    ∃ answers F' filters updates, (recordAll calls).run F = (answers, F') ∧
      answers.length = calls.length ∧
      F'.filters = F.filters ++ filters ∧
      F'.updates = F.updates ++ updates ∧
      F'.bindings = F.bindings ++ (accepted calls answers).flatMap Call.bindings ∧
      filters.length = (accepted calls answers).countP Call.isTest ∧
      updates.length = (accepted calls answers).countP (!Call.isTest ·) := by
  induction calls generalizing F with
  | nil => exact ⟨[], F, [], [], rfl, rfl, by simp [accepted]⟩
  | cons call rest ih =>
    rw [List.forall_mem_cons] at hr
    cases hperform : F.perform call with
    | none =>
      have hrun : (record call).run F = (false, F) := by
        rw [run_record, hperform]
        rfl
      obtain ⟨answers, F', filters, updates, hall, hlength, hparts⟩ := ih F hr.2
      have hcons : (recordAll (call :: rest)).run F = (false :: answers, F') := by
        rw [run_recordAll_cons, hrun, hall]
      exact ⟨_, F', filters, updates, hcons, by simp [hlength], hparts⟩
    | some G =>
      have hrun : (record call).run F = (true, G) := by
        rw [run_record, hperform]
        rfl
      obtain ⟨answers, F', filters, updates, hall, hlength, hfs, hus, hbs, hcf, hcu⟩ := ih G hr.2
      have hcons : (recordAll (call :: rest)).run F = (true :: answers, F') := by
        rw [run_recordAll_cons, hrun, hall]
      cases ht : call.isTest with
      | true =>
        obtain ⟨f, rfl⟩ := exists_addFilter_of_perform ht hperform
        have hnone : call.bindings = [] := Call.bindings_of_isTest ht
        refine ⟨_, F', f :: filters, updates, hcons, by simp [hlength],
          by simp [hfs, addFilter], hus, ?_⟩
        rw [accepted_cons_true]
        simp [hbs, hcf, hcu, hnone, ht, addFilter]
      | false =>
        obtain ⟨u, rfl, -⟩ := exists_addUpdate_of_perform ht hr.1 hperform
        refine ⟨_, F', filters, u :: updates, hcons, by simp [hlength], hfs,
          by simp [hus, addUpdate, addBindings], ?_⟩
        rw [accepted_cons_true]
        simp [hbs, hcf, hcu, ht, addUpdate, addBindings]

end Fragments

end Dossier
