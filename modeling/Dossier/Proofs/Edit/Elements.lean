import Mathlib
import Dossier.Proofs.Edit.Described
import Dossier.Proofs.Edit.Flag
import Dossier.Proofs.Identity.Confused
import Dossier.Query.Build

/-!
# Updates of array elements in one query

Every call that changes an array element binds the same placeholder. In a query of several calls an
element therefore has to be the one of every call.

* **`ElementCall`**, `ElementCall.recordAll?`: the calls, and the query that they record;
* `ElementCall.allAccept_eq_iff`: the bindings of all calls accept what that of each call accepts
  iff their identities are confused;
* `ElementCall.overwritten`, **`ElementCall.edit_items`**: what one call makes of an array;
* **`ElementCall.edit_batch_of_confused`**: then the calls compose;
* **`ElementCall.edit_batch_of_not_confused`**: else their query changes nothing.
-/

namespace Dossier

/-! ## Calls -/

/-- A call that overwrites an array element. -/
structure ElementCall where
  element : ElementRef
  value : Value

namespace ElementCall

/-- Records a call in a query; no codec is registered. -/
def record? (q : Query) (call : ElementCall) : Option Query :=
  q.updateElement? Codebook.empty call.element call.value .addOrOverwrite

/-- The query that calls record. -/
def recordAll? (calls : List ElementCall) : Option Query := calls.foldlM record? Query.empty

/-- The path of the array. -/
def path (call : ElementCall) : Path := Dotted.segments call.element.array

/-- The update that a call records. -/
def update (call : ElementCall) : Update :=
  ⟨Query.elementPath call.element.array, .assign call.value⟩

/-- The binding that a call records. -/
def binding (call : ElementCall) : Binding := Query.bindingTo "elem" call.element.id

/-- What calls record. -/
def batch (calls : List ElementCall) : Query :=
  { updates := calls.map update, bindings := calls.map binding }

theorem foldlM_record? (calls : List ElementCall) (q : Query) :
    calls.foldlM record? q = some { q with
      updates := q.updates ++ calls.map update, bindings := q.bindings ++ calls.map binding } := by
  induction calls generalizing q with
  | nil => simp
  | cons call rest ih =>
    have hrecord : record? q call = some { q with
        updates := q.updates ++ [call.update], bindings := q.bindings ++ [call.binding] } := rfl
    rw [List.foldlM_cons, hrecord, Option.bind_eq_bind, Option.bind_some, ih]
    simp

theorem recordAll?_eq (calls : List ElementCall) : recordAll? calls = some (batch calls) :=
  foldlM_record? calls Query.empty

theorem mapM_recordAll? (calls : List ElementCall) :
    calls.mapM (fun call => recordAll? [call]) = some (calls.map fun call => batch [call]) := by
  induction calls with
  | nil => rfl
  | cons call rest ih => rw [List.mapM_cons, recordAll?_eq, ih]; rfl

theorem ofPath_update (call : ElementCall) :
    Step.ofPath call.update.field =
      call.path.map Step.ofSegment ++ [.bound "elem"] := by
  have hfield : call.update.field = call.element.array ++ "." ++ "$[elem]" := by
    rw [String.append_assoc]
    rfl
  rw [Step.ofPath, hfield, Dotted.segments_append_dot, List.map_append]
  rfl

theorem bindingsOf_batch (calls : List ElementCall) (d : Document) (name : String) :
    ((batch calls).scope d).bindingsOf name =
      if name = "elem" then calls.map binding else [] := by
  rw [Scope.bindingsOf]
  split
  · rename_i h
    exact List.filter_eq_self.mpr fun b hb => by
      obtain ⟨call, -, rfl⟩ := List.mem_map.mp hb
      simp [binding, Query.bindingTo, h]
  · rename_i h
    refine List.filter_eq_nil_iff.mpr fun b hb => ?_
    obtain ⟨call, -, rfl⟩ := List.mem_map.mp hb
    simp [binding, Query.bindingTo, Ne.symm h]

/-! ## Elements that bindings accept -/

theorem accepts_binding_iff (call : ElementCall) (fields : Document) :
    call.binding.accepts fields = true ↔
      ∃ v, fields.find? "_id" = some v ∧ v.alike call.element.id.toValue = true := by
  have hreach : fields.reach (Dotted.segments "_id") = (fields.find? "_id").toList := rfl
  rw [binding, Query.bindingTo, Binding.accepts, hreach]
  cases fields.find? "_id" <;> simp

theorem allAccept_iff {calls : List ElementCall} {fields : Document} :
    Binding.allAccept (calls.map binding) (.document fields) = true ↔
      ∀ call ∈ calls, call.binding.accepts fields = true := by
  simp [Binding.allAccept]

theorem allAccept_singleton (b : Binding) (fields : Document) :
    Binding.allAccept [b] (.document fields) = b.accepts fields := by
  simp [Binding.allAccept]

/-- **The bindings of calls accept what that of one call accepts** exactly when the identities are
confused. -/
theorem allAccept_eq_iff (calls : List ElementCall) :
    (∀ call ∈ calls, Binding.allAccept (calls.map binding) = Binding.allAccept [call.binding]) ↔
      ∀ call ∈ calls, ∀ other ∈ calls, call.element.id.Confused other.element.id := by
  constructor
  · intro h call hc other ho
    -- the element of `call` is accepted alone, and so has to be accepted by `other`
    have halone : Binding.allAccept [call.binding] (.document [("_id", call.element.id.toValue)]) =
        true := by
      rw [allAccept_singleton, accepts_binding_iff]
      exact ⟨_, rfl, (Identity.alike_toValue_iff _ _).mpr (.refl _)⟩
    rw [← h call hc, allAccept_iff] at halone
    obtain ⟨v, hv, halike⟩ := (accepts_binding_iff other _).mp (halone other ho)
    cases hv
    exact (Identity.alike_toValue_iff _ _).mp halike
  · intro h call hc
    funext v
    cases v
    case document fields =>
      rw [Bool.eq_iff_iff, allAccept_iff, allAccept_singleton]
      constructor
      · exact fun hall => hall call hc
      · intro haccepts other ho
        obtain ⟨v, hv, halike⟩ := (accepts_binding_iff call _).mp haccepts
        rw [accepts_binding_iff]
        exact ⟨v, hv, (Identity.alike_toValue_congr halike _).mpr (h call hc other ho)⟩
    all_goals rfl

theorem allAccept_of_not_confused {calls : List ElementCall}
    (h : ¬ ∀ call ∈ calls, ∀ other ∈ calls, call.element.id.Confused other.element.id) (v : Value) :
    Binding.allAccept (calls.map binding) v = false := by
  rw [Bool.eq_false_iff]
  intro hall
  cases v
  case document fields =>
    rw [allAccept_iff] at hall
    refine h fun call hc other ho => ?_
    obtain ⟨v, hv, halike⟩ := (accepts_binding_iff call _).mp (hall call hc)
    obtain ⟨w, hw, halike'⟩ := (accepts_binding_iff other _).mp (hall other ho)
    rw [hv] at hw
    cases hw
    exact (Identity.alike_toValue_congr halike _).mp halike'
  all_goals cases hall

/-! ## One call -/

/-- What a call makes of an element of its array. -/
def overwritten (call : ElementCall) (w : Value) : Value :=
  if Binding.allAccept [call.binding] w && !w.same call.value then call.value else w

/-- Whether a call makes a difference to an element of its array. -/
def overwrites (call : ElementCall) (w : Value) : Bool :=
  Binding.allAccept [call.binding] w && !w.same call.value

theorem act_item (call : ElementCall) {items : List Value} {i : ℕ} {w : Value}
    (h : items[i]? = some w) : call.update.act (.array items) (.index i) =
      if w.same call.value then .ok (.array items, false)
      else .ok (.array (items.set i call.value), true) := by
  have hact : call.update.act (.array items) (.index i) =
      (Value.array items).perform (.index i) (.fill call.value) := rfl
  have hholds : (Slot.index i).holds (.array items) call.value = w.same call.value := by
    rw [Slot.holds, Value.inSlot?, h, Option.any_some]
  have hlt := (List.getElem?_eq_some_iff.mp h).1
  rw [hact, Value.perform, hholds, Value.put, Value.putItem_of_lt hlt]
  rfl

/-- The elements that the binding of a call accepts are overwritten one after the other; those in
front are done. -/
theorem onSlots_items (call : ElementCall) (front items : List Value) (acted : Bool) :
    Value.onSlots call.update.act
        ((positionsFrom front.length (Binding.allAccept [call.binding]) items).map .index)
        (.array (front ++ items), acted) =
      .ok (.array (front ++ items.map call.overwritten), acted || items.any call.overwrites) := by
  induction items generalizing front acted with
  | nil => simp [positionsFrom, Value.onSlots, pure, Except.pure]
  | cons w rest ih =>
    have hlength (x : Value) : (front ++ [x]).length = front.length + 1 := by simp
    have hw : (front ++ w :: rest)[front.length]? = some w := by simp
    have hset : (front ++ w :: rest).set front.length call.value =
        (front ++ [call.value]) ++ rest := by simp
    have hkept : front ++ w :: rest = (front ++ [w]) ++ rest := by simp
    rw [positionsFrom, List.map_cons, List.any_cons, overwritten, overwrites]
    cases Binding.allAccept [call.binding] w with
    | false =>
      rw [if_neg (by simp), ← hlength w, hkept, ih]
      simp
    | true =>
      rw [if_pos rfl, List.map_cons, Value.onSlots, List.foldlM_cons, act_item call hw]
      cases hsame : w.same call.value with
      | true =>
        have := ih (front ++ [w]) (acted || false)
        rw [hlength w, ← hkept] at this
        refine this.trans ?_
        simp
      | false =>
        have := ih (front ++ [call.value]) (acted || true)
        rw [hlength call.value, ← hset] at this
        refine this.trans ?_
        simp

/-- **What one call makes of an array**, where its placeholder is bound to its element alone. -/
theorem edit_items {call : ElementCall} {scope : Scope}
    (hbindings : scope.bindingsOf "elem" = [call.binding]) (items : List Value) (path : Path) :
    (Value.array items).edit scope true call.update.act [.bound "elem"] path =
      .ok (.array (items.map call.overwritten), items.any call.overwrites) := by
  have hslots : scope.slots path (.bound "elem") (.array items) =
      .ok ((positionsFrom 0 (Binding.allAccept [call.binding]) items).map .index) := by
    rw [Scope.slots, hbindings]
    rfl
  rw [Value.edit_eq, hslots]
  exact onSlots_items call [] items false

/-! ## Calls in one query -/

/-- **Calls for confused identities compose.** -/
theorem edit_batch_of_confused {calls : List ElementCall}
    (h : ∀ call ∈ calls, ∀ other ∈ calls, call.element.id.Confused other.element.id)
    (d : Document) :
    ((batch calls).edit d).map Prod.fst =
      Query.oneByOne (calls.map fun call => batch [call]) d := by
  have haccept := (allAccept_eq_iff calls).mpr h
  refine Query.edit_eq_oneByOne ?_
  rw [batch, List.forall₂_map_left_iff, List.forall₂_map_right_iff, List.forall₂_same]
  refine fun call hc => ⟨rfl, fun e => Scope.slots_congr rfl rfl fun name => ?_⟩
  rw [← batch, bindingsOf_batch, bindingsOf_batch]
  by_cases hname : name = "elem"
  · have hne : calls ≠ [] := List.ne_nil_of_mem hc
    rw [if_pos hname, if_pos hname]
    exact ⟨by simp [hne], (haccept call hc).symm⟩
  · rw [if_neg hname, if_neg hname]
    exact ⟨rfl, rfl⟩

theorem edit_bound_of_rejected {scope : Scope} {creates : Bool}
    {act : Value → Slot → Except UpdateError (Value × Bool)} {name : String} {items : List Value}
    {path : Path} (hb : scope.bindingsOf name ≠ [])
    (h : ∀ v ∈ items, Binding.allAccept (scope.bindingsOf name) v = false) :
    (Value.array items).edit scope creates act [.bound name] path = .ok (.array items, false) := by
  have hnone : ∀ start,
      positionsFrom start (Binding.allAccept (scope.bindingsOf name)) items = [] := by
    induction items with
    | nil => exact fun _ => rfl
    | cons v rest ih =>
      rw [List.forall_mem_cons] at h
      intro start
      rw [positionsFrom, h.1]
      exact ih h.2 (start + 1)
  refine Value.edit_of_no_slots ?_
  rw [Scope.slots, hnone]
  simp [hb]

theorem edit_update {call : ElementCall} {scope : Scope} {d : Document} {w : Value}
    (hplain : Path.Plain call.path)
    (h : (Value.document d).within? call.path = some w) :
    call.update.apply scope (.document d) =
      (w.edit scope true call.update.act [.bound "elem"] call.path).map fun edited =>
        ((Value.document d).putWithin call.path edited.1, edited.2) := by
  rw [Update.apply_eq, ofPath_update, hplain.map_ofSegment, Value.edit_of_within h (by simp)]
  rfl

/-- **Calls for identities that are not confused change nothing** in one query. -/
theorem edit_batch_of_not_confused {calls : List ElementCall}
    (hplain : ∀ call ∈ calls, Path.Plain call.path)
    (h : ¬ ∀ call ∈ calls, ∀ other ∈ calls, call.element.id.Confused other.element.id)
    {d : Document} (harrays : ∀ call ∈ calls, ∃ items,
      (Value.document d).within? call.path = some (.array items)) :
    (batch calls).edit d = .ok (d, false) := by
  have happly : ∀ call ∈ calls,
      call.update.apply ((batch calls).scope d) (.document d) = .ok (.document d, false) := by
    intro call hc
    obtain ⟨items, hitems⟩ := harrays call hc
    have hbindings : ((batch calls).scope d).bindingsOf "elem" = calls.map binding := by
      rw [bindingsOf_batch, if_pos rfl]
    rw [edit_update (hplain call hc) hitems, edit_bound_of_rejected]
    · simp [Except.map, Value.putWithin_eq_self hitems]
    · simp [hbindings, List.ne_nil_of_mem hc]
    · intro v _
      rw [hbindings]
      exact allAccept_of_not_confused h v
  have hfold : ∀ cs ⊆ calls, (cs.map update).foldlM (Query.step ((batch calls).scope d))
      (.document d, false) = .ok (.document d, false) := by
    intro cs hcs
    induction cs with
    | nil => rfl
    | cons call rest ih =>
      rw [List.cons_subset] at hcs
      rw [List.map_cons, List.foldlM_cons, Query.step, happly call hcs.1]
      exact ih hcs.2
  have hupdates : (batch calls).updates = calls.map update := rfl
  rw [Query.edit_eq, hupdates, hfold calls (List.Subset.refl calls)]
  rfl

end ElementCall

end Dossier
