import Mathlib
import Dossier.Proofs.Edit.Flag

/-!
# Slots before and after an edit

An edit changes what is in the slots of a value and not what kind of value it is, so that the same
steps name the same slots afterwards.

* `Value.inSlot?_put`, **`Value.perform_fill_cases`**: what is in a slot that was filled;
* `Value.kind_put`, `Value.ToldAt.kind`: the kind of the value stays;
* **`Value.inSlot?_eq_child?`**: a key names the slot of the child that readers of paths find.
-/

namespace Dossier

namespace Value

variable {v w new child : Value} {slot : Slot} {creates : Bool} {scope : Scope} {path : Path}
  {k : String}

/-! ## Filled slots -/

theorem inSlot?_put (h : v.put slot new = .ok w) : w.inSlot? slot = some new := by
  cases v <;> cases slot <;> cases h
  case document.key.refl fields k => exact Entries.find?_insert_self fields k new
  case array.index.refl items index =>
    have hlt : index < (items ++ List.replicate (index + 1 - items.length) null).length := by
      simp only [List.length_append, List.length_replicate]
      omega
    rw [inSlot?, putItem, List.getElem?_set_self hlt]

theorem perform_fill_cases {changed : Bool} (h : v.perform slot (.fill new) = .ok (w, changed)) :
    (changed = true ∧ w.inSlot? slot = some new) ∨
      (changed = false ∧ w = v ∧ ∃ x, v.inSlot? slot = some x ∧ x.same new = true) := by
  rw [perform] at h
  split at h
  case isTrue hholds =>
    cases h
    exact .inr ⟨rfl, rfl, (Option.any_eq_true _ _).mp hholds⟩
  case isFalse =>
    obtain ⟨put, hput, h⟩ := map_eq_ok.mp h
    cases h
    exact .inl ⟨rfl, inSlot?_put hput⟩

theorem WellFormed.of_inSlot? (hv : v.WellFormed) (h : v.inSlot? slot = some child) :
    child.WellFormed := by
  cases v <;> cases slot <;> try cases h
  case document.key fields k => exact (wellFormed_document.mp hv).2 _ (Entries.mem_of_find? h)
  case array.index items i => exact wellFormed_array.mp hv child (List.mem_of_getElem? h)

theorem enter?_of_inSlot? (h : v.inSlot? slot = some child) :
    v.enter? creates slot = .ok (some child) := by
  cases v <;> cases slot <;> try cases h
  case document.key fields k =>
    have hfind : Entries.find? fields k = some child := h
    rw [enter?, hfind]
  case array.index items index => rw [enter?, ← h, inSlot?]

/-- A path that makes what it lacks ends early only at a position that an array does not have. -/
theorem enter?_eq_none (h : v.enter? true slot = .ok none) :
    ∃ items index, v = array items ∧ slot = .index index ∧ items.length ≤ index := by
  cases v <;> try cases h
  case document fields =>
    cases slot <;> try cases h
    case key k =>
      rw [enter?] at h
      split at h <;> cases h
  case array items =>
    cases slot <;> try cases h
    case index index => exact ⟨items, index, rfl, rfl, List.getElem?_eq_none_iff.mp (Except.ok.inj h)⟩

/-! ## Kinds -/

theorem kind_put (h : v.put slot new = .ok w) : w.kind = v.kind := by
  cases v <;> cases slot <;> cases h <;> rfl

theorem Altered.kind (h : Altered v slot w) : w.kind = v.kind := by
  cases h with
  | put _ hput => exact kind_put hput
  | erase _ => rfl

theorem ToldAt.kind {changed : Bool} (h : ToldAt v slot (w, changed)) : w.kind = v.kind := by
  cases changed with
  | false => exact congrArg Value.kind (h.kept rfl)
  | true => exact (h.altered rfl).kind

/-! ## Slots that keys name -/

theorem slots_key_of_kind (h : w.kind = v.kind) :
    scope.slots path (.key k) w = scope.slots path (.key k) v := by
  cases v <;> cases w <;> first | rfl | cases h

/-- **A key names the slot of the child** that readers of paths find. -/
theorem inSlot?_eq_child? (h : scope.slots path (.key k) v = .ok [slot]) :
    v.inSlot? slot = v.child? k := by
  cases v
  case array items =>
    rw [Scope.slots] at h
    split at h <;> cases h
    case h_1.refl index hindex => rw [inSlot?, child?, hindex, Option.bind_some]
  all_goals cases h; rfl

theorem index?_of_slots {items : List Value} {index : ℕ}
    (h : scope.slots path (.key k) (array items) = .ok [.index index]) :
    Numeral.index? k = some index := by
  rw [Scope.slots] at h
  split at h <;> cases h
  assumption

theorem exists_slot_of_child? (scope : Scope) (path : Path) (h : v.child? k = some child) :
    ∃ slot, scope.slots path (.key k) v = .ok [slot] ∧ v.inSlot? slot = some child := by
  cases v <;> try cases h
  case document fields => exact ⟨.key k, rfl, h⟩
  case array items =>
    obtain ⟨index, hindex, hitem⟩ := Option.bind_eq_some_iff.mp h
    refine ⟨.index index, ?_, hitem⟩
    rw [Scope.slots, hindex]

end Value

end Dossier
