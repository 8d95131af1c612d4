import Mathlib
import Dossier.Proofs.Edit.Slots
import Dossier.Proofs.Fragment.Basic
import Dossier.Proofs.Value.Ordered
import Dossier.Proofs.Value.Reflexive

/-!
# Repeated updates

An update that does not accumulate has done all it can when it was applied once: applied again, on
the document that it left, it finds nothing to do. A placeholder may stand for other elements then,
but only for some of those that it stood for, and they are done with.

* `Change.Settling`, `Change.Settling.effect_filled`: the changes, and what they do to what they made;
* `Value.Settles`, `Update.settles_act`: the same for a slot;
* **`Value.settled_onSlots`**, **`Value.settled_bound`**: for the elements that a placeholder stands
  for;
* **`Value.edit_edit`**, **`Query.edit_again`**: for a path, and for an update of a document.
-/

namespace Dossier

/-! ## Changes -/

/-- The operators that do not accumulate. -/
def UpdateOp.settles : UpdateOp → Bool
  | .addOrOverwrite | .remove | .addIfNotExist | .overwriteIfGreater | .overwriteIfLower
  | .removeFromArray => true
  | _ => false

namespace Change

variable {change : Change} {field : String} {existing : Option Value} {new : Value}

/-- Whether a change does not accumulate; a value that it writes has each key once and no NaN. -/
structure Settling (change : Change) : Prop where
  op : change.op.settles = true
  operand : ∀ v, change.operand = .value v → v.WellFormed ∧ v.NaNFree

theorem shorten_filter {op : UpdateOp} {test : Value → Bool}
    (h : shorten op field (List.filter test) existing = .ok (.fill new)) :
    shorten op field (List.filter test) (some new) = .ok .keep := by
  cases existing with
  | none => cases h
  | some held =>
    cases held <;> try cases h
    case array items =>
      rw [shorten] at h
      split at h <;> cases h
      simp [shorten]

/-- **What such a change fills a slot with** it keeps there, or fills with the same again. -/
theorem Settling.effect_filled (hs : change.Settling)
    (h : change.effect field existing = .ok (.fill new)) :
    change.effect field (some new) = .ok .keep ∨
      ∃ x, change.effect field (some new) = .ok (.fill x) ∧ new.same x = true := by
  obtain ⟨hop, hoperand⟩ := hs
  cases change
  case increment | multiply | removeFirst | removeLast | append => cases hop
  case remove => cases h
  case assign v =>
    cases h
    obtain ⟨hw, hn⟩ := hoperand _ rfl
    exact .inr ⟨_, rfl, Value.same_self hw hn⟩
  case addUnique v =>
    obtain ⟨hw, hn⟩ := hoperand v rfl
    obtain ⟨items, -, h⟩ := bind_eq_ok.mp h
    split at h <;> cases h
    left
    simp [effect, growing, Value.alike_self hw hn, bind, Except.bind, pure, Except.pure]
  case keepGreater v | keepLower v =>
    have hnew : new = v := by
      cases existing with
      | none => cases h; rfl
      | some held =>
        rw [effect, overwriteIf] at h
        split at h <;> cases h
        rfl
    left
    rw [hnew, effect, overwriteIf]
    rcases v.compare?_self with hself | hself <;> simp [hself]
  case pull v => exact .inl (shorten_filter h)
  case pullMatching conditions => exact .inl (shorten_filter h)

theorem Settling.eq_remove (hs : change.Settling) (h : change.effect field existing = .ok .clear) :
    change = .remove := by
  have hop := hs.op
  have hshorten {op : UpdateOp} {f : List Value → List Value} :
      shorten op field f existing ≠ .ok .clear := by
    intro h
    cases existing with
    | none => cases h
    | some held =>
      cases held <;> try cases h
      case array items =>
        rw [shorten] at h
        split at h <;> cases h
  have hoverwrite {wanted : Ordering} {v : Value} : overwriteIf wanted v existing ≠ .clear := by
    intro h
    cases existing with
    | none => cases h
    | some held =>
      rw [overwriteIf] at h
      split at h <;> cases h
  cases change
  case increment | multiply | removeFirst | removeLast | append => cases hop
  case remove => rfl
  case assign v => cases h
  case addUnique v =>
    obtain ⟨items, -, h⟩ := bind_eq_ok.mp h
    split at h <;> cases h
  case keepGreater v | keepLower v => exact absurd (Except.ok.inj h) hoverwrite
  case pull v | pullMatching conditions => exact absurd h hshorten

end Change

namespace Value

variable {scope : Scope} {creates : Bool} {act f : Value → Slot → Except UpdateError (Value × Bool)}
  {rest : List Step} {path : Path} {v w : Value} {slot : Slot} {changed : Bool}

/-! ## One slot -/

/-- Whether a value has each key once, and well-formed contents in a slot. -/
structure WellFormedAt (v : Value) (slot : Slot) : Prop where
  distinct : v.DistinctKeys
  inside : ∀ x, v.inSlot? slot = some x → x.WellFormed

theorem WellFormed.at (h : v.WellFormed) (slot : Slot) : v.WellFormedAt slot :=
  ⟨h.self, fun _ => h.of_inSlot?⟩

/-- Whether an act that did something to a slot has nothing more to do there. -/
def Settles (f : Value → Slot → Except UpdateError (Value × Bool)) : Prop :=
  ∀ v slot w changed, v.WellFormedAt slot → f v slot = .ok (w, changed) → f w slot = .ok (w, false)

/-- Whether an act that has nothing to do at a position of an array has nothing to do in any array
with the same value there. -/
def Positional (f : Value → Slot → Except UpdateError (Value × Bool)) : Prop :=
  ∀ xs ys i, ys[i]? = xs[i]? → f (array xs) (.index i) = .ok (array xs, false) →
    f (array ys) (.index i) = .ok (array ys, false)

theorem clear_clear (hd : v.DistinctKeys) (slot : Slot) :
    (v.clear slot).1.clear slot = ((v.clear slot).1, false) := by
  cases v <;> cases slot <;> try rfl
  case document.key fields k =>
    have hnone := Entries.find?_erase_self hd k
    rw [clear, clear, Entries.contains, hnone, Entries.erase_of_find?_eq_none hnone]
    rfl
  case array.index items i =>
    rw [clear]
    split
    case isTrue hany =>
      obtain ⟨x, hx, -⟩ := (Option.any_eq_true _ _).mp hany
      rw [clear, List.getElem?_set_self (List.getElem?_eq_some_iff.mp hx).1]
      rfl
    case isFalse hany => rw [clear, if_neg hany]

end Value

/-- **An update that does not accumulate** has nothing more to do in its slot. -/
theorem Update.settles_act {u : Update} (hs : u.change.Settling) : Value.Settles u.act := by
  intro v slot w changed hv h
  cases changed with
  | false =>
    obtain rfl : w = v := (u.honest_act v slot _ h).kept rfl
    exact h
  | true =>
    obtain ⟨effect, heffect, hperform⟩ := bind_eq_ok.mp h
    cases effect with
    | keep => cases hperform
    | clear =>
      have hclear : v.clear slot = (w, true) := Except.ok.inj hperform
      have hagain := Value.clear_clear hv.distinct slot
      rw [hclear] at hagain
      rw [Update.act, hs.eq_remove heffect]
      exact congrArg Except.ok hagain
    | fill new =>
      obtain ⟨-, hslot⟩ | ⟨hflag, -⟩ := Value.perform_fill_cases hperform
      case inr => cases hflag
      rw [Update.act, hslot]
      obtain hkeep | ⟨x, hfill, hsame⟩ := hs.effect_filled heffect
      · rw [hkeep]
        rfl
      · have hholds : slot.holds w x = true := by rw [Slot.holds, hslot, Option.any_some, hsame]
        rw [hfill]
        simp [bind, Except.bind, Value.perform, hholds]

theorem Update.positional_act (u : Update) : Value.Positional u.act := by
  intro xs ys i hi h
  obtain ⟨effect, heffect, hperform⟩ := bind_eq_ok.mp h
  have hslot : (Value.array ys).inSlot? (.index i) = (Value.array xs).inSlot? (.index i) := hi
  rw [Update.act, hslot, heffect]
  cases effect with
  | keep => rfl
  | clear =>
    have hclear : (Value.array xs).clear (.index i) = (.array xs, false) := Except.ok.inj hperform
    have hkept : ¬ xs[i]?.any (!Value.same · .null) = true := by
      intro hany
      rw [Value.clear, if_pos hany, Prod.mk.injEq] at hclear
      cases hclear.2
    rw [← hi] at hkept
    refine congrArg Except.ok ?_
    rw [Value.clear, if_neg hkept]
  | fill new =>
    obtain ⟨hflag, -⟩ | ⟨-, -, x, hx, hsame⟩ := Value.perform_fill_cases hperform
    case inl => cases hflag
    have hholds : (Slot.index i).holds (.array ys) new = true := by
      rw [Slot.holds, hslot, hx, Option.any_some, hsame]
    simp [bind, Except.bind, Value.perform, hholds]

namespace Value

/-- What is known of an act that is repeated. -/
structure Repeatable (creates : Bool) (act : Value → Slot → Except UpdateError (Value × Bool)) :
    Prop where
  honest : Honest act
  fills : creates = true → Fills act
  settles : Settles act
  positional : Positional act

theorem honest_editSlot (hact : Repeatable creates act) :
    Honest (editSlot scope creates act rest path) := fun _ _ _ h =>
  told_editSlot hact.honest hact.fills (fun _ _ _ => told_edit hact.honest hact.fills) h

theorem settles_editSlot (hact : Repeatable creates act)
    (hrest : ∀ (path : Path) (child child' : Value) (acted : Bool), child.WellFormed →
      child.edit scope creates act rest path = .ok (child', acted) →
      child'.edit scope creates act rest path = .ok (child', false)) :
    Settles (editSlot scope creates act rest path) := by
  intro v slot w changed hv h
  obtain ⟨rfl, hr⟩ | ⟨hgoes, henter, hr⟩ | ⟨child, child', hgoes, henter, hedit, hput⟩ :=
    editSlot_cases h
  · exact hact.settles v slot w changed hv hr
  · cases hr
    exact editSlot_of_enter?_none hgoes henter
  · have hchild : child.WellFormed := by
      obtain hin | ⟨-, -, rfl⟩ := enter?_eq_some henter
      · exact hv.inside child hin
      · simp [Entries.Distinct, Entries.keys]
    have hin : w.inSlot? slot = some child' := inSlot?_put hput
    rw [editSlot_of_enter?_some hgoes (enter?_of_inSlot? hin), hrest _ _ _ _ hchild hedit]
    simp [bind, Except.bind, put_of_inSlot? hin]

theorem positional_editSlot (hact : Repeatable creates act) :
    Positional (editSlot scope creates act rest path) := by
  intro xs ys i hi h
  have hsame : (array ys).enter? creates (.index i) = (array xs).enter? creates (.index i) :=
    congrArg Except.ok hi
  obtain ⟨rfl, hr⟩ | ⟨hgoes, henter, -⟩ | ⟨child, child', hgoes, henter, hedit, -⟩ :=
    editSlot_cases h
  · exact hact.positional xs ys i hi hr
  · exact editSlot_of_enter?_none hgoes (hsame.trans henter)
  · -- nothing was done inside, so what is put back is what was there
    obtain rfl : child' = child := (told_edit hact.honest hact.fills hedit).kept rfl
    have hin : (array ys).inSlot? (.index i) = some child' := hi.trans (Except.ok.inj henter)
    rw [editSlot_of_enter?_some hgoes (hsame.trans henter), hedit]
    simp [bind, Except.bind, put_of_inSlot? hin]

/-! ## The elements that a placeholder stands for -/

theorem onSlots_of_settled {slots : List Slot} (h : ∀ slot ∈ slots, f v slot = .ok (v, false)) :
    onSlots f slots (v, changed) = .ok (v, changed) := by
  induction slots with
  | nil => rfl
  | cons slot slots ih =>
    rw [List.forall_mem_cons] at h
    rw [onSlots, List.foldlM_cons, h.1]
    simp only [Except.map, Bool.or_false]
    exact ih h.2

theorem ToldAt.exists_set {items : List Value} {i : ℕ}
    (h : ToldAt (array items) (.index i) (w, changed)) (hi : i < items.length) :
    ∃ new, w = array (items.set i new) := by
  cases changed with
  | false =>
    refine ⟨items[i], ?_⟩
    rw [List.set_getElem_self]
    exact h.kept rfl
  | true =>
    obtain ⟨new, -, hw⟩ := (h.altered rfl).exists_item hi
    exact ⟨new, hw⟩

/-- **Acts on positions of an array** leave the others alone, and have nothing more to do. Each
position is met once, with what was there at first. -/
theorem settled_onSlots (hhonest : Honest f) (hsettles : Settles f) (hpositional : Positional f)
    {items : List Value} {acted : Bool} {is : List ℕ} (hnodup : is.Nodup)
    (hlt : ∀ i ∈ is, i < items.length) (hwell : ∀ i ∈ is, (array items).WellFormedAt (.index i))
    (h : onSlots f (is.map .index) (array items, acted) = .ok (w, changed)) :
    ∃ left, w = array left ∧ left.length = items.length ∧ (∀ j, j ∉ is → left[j]? = items[j]?) ∧
      ∀ i ∈ is, f (array left) (.index i) = .ok (array left, false) := by
  induction is generalizing items acted with
  | nil =>
    cases h
    exact ⟨items, rfl, rfl, fun _ _ => rfl, by simp⟩
  | cons i is ih =>
    obtain ⟨hi, hnodup⟩ := List.nodup_cons.mp hnodup
    rw [List.forall_mem_cons] at hlt hwell
    rw [onSlots, List.map_cons, List.foldlM_cons] at h
    obtain ⟨next, hnext, h⟩ := bind_eq_ok.mp h
    obtain ⟨⟨now, told⟩, hnow, rfl⟩ := map_eq_ok.mp hnext
    obtain ⟨new, rfl⟩ := ToldAt.exists_set (hhonest _ _ _ hnow) hlt.1
    have hdone := hsettles _ _ _ _ hwell.1 hnow
    have hother {j : ℕ} (hj : j ≠ i) : (items.set i new)[j]? = items[j]? :=
      List.getElem?_set_ne hj.symm
    have hwell' : ∀ j ∈ is, (array (items.set i new)).WellFormedAt (.index j) := by
      intro j hj
      have hji : j ≠ i := fun hji => hi (hji ▸ hj)
      refine ⟨trivial, fun x hx => (hwell.2 j hj).inside x ?_⟩
      rw [← hx]
      exact (hother hji).symm
    obtain ⟨left, rfl, hlength, hleft, hsettled⟩ := ih hnodup (by simpa using hlt.2) hwell' h
    refine ⟨left, rfl, by simpa using hlength, fun j hj => ?_, ?_⟩
    · rw [List.mem_cons, not_or] at hj
      rw [hleft j hj.2, hother hj.1]
    · rw [List.forall_mem_cons]
      exact ⟨hpositional _ _ i (hleft i hi) hdone, hsettled⟩

end Value

/-! ## Paths -/

namespace Scope

variable {scope : Scope} {path : Path} {name : String} {v : Value} {slots : List Slot}

theorem slots_bound_eq_ok : scope.slots path (.bound name) v = .ok slots ↔
    ∃ items, v = .array items ∧ ((scope.bindingsOf name).isEmpty = true → items = []) ∧
      slots = (positionsFrom 0 (Binding.allAccept (scope.bindingsOf name)) items).map .index := by
  cases v
  case array items =>
    rw [Scope.slots]
    cases hbound : (scope.bindingsOf name).isEmpty <;> cases items <;> simp [eq_comm]
  all_goals
    constructor
    · intro h
      cases h
    · rintro ⟨items, hitems, -⟩
      cases hitems

theorem slots_eq_of_bindings {s t : Scope} (hbindings : s.bindings = t.bindings) {step : Step}
    (hstep : step ≠ .matched) (path : Path) (v : Value) :
    s.slots path step v = t.slots path step v := by
  cases step with
  | key k => cases v <;> rfl
  | matched => exact absurd rfl hstep
  | bound name =>
    have hname : s.bindingsOf name = t.bindingsOf name := congrArg (List.filter _) hbindings
    cases v
    case array items => simp only [slots, hname]
    all_goals rfl

end Scope

namespace Value

variable {scope : Scope} {creates : Bool} {act f : Value → Slot → Except UpdateError (Value × Bool)}
  {path : Path} {v w : Value} {changed : Bool}

theorem settled_key {k : String} (hhonest : Honest f) (hsettles : Settles f)
    (hv : v.WellFormed) {slots : List Slot} (hslots : scope.slots path (.key k) v = .ok slots)
    (h : onSlots f slots (v, false) = .ok (w, changed)) :
    ∃ slots', scope.slots path (.key k) w = .ok slots' ∧
      ∀ slot ∈ slots', f w slot = .ok (w, false) := by
  obtain ⟨slot, rfl, -⟩ := Scope.slots_key_cases hslots
  rw [onSlots_singleton] at h
  refine ⟨[slot], (slots_key_of_kind (hhonest _ _ _ h).kind).trans hslots, ?_⟩
  rw [List.forall_mem_singleton]
  exact hsettles v slot w changed (hv.at slot) h

/-- **A placeholder stands for nothing new**: an element that it did not stand for is as it was, and
the others are done with. -/
theorem settled_bound {name : String} (hhonest : Honest f) (hsettles : Settles f)
    (hpositional : Positional f) (hv : v.WellFormed) {slots : List Slot}
    (hslots : scope.slots path (.bound name) v = .ok slots)
    (h : onSlots f slots (v, false) = .ok (w, changed)) :
    ∃ slots', scope.slots path (.bound name) w = .ok slots' ∧
      ∀ slot ∈ slots', f w slot = .ok (w, false) := by
  obtain ⟨items, rfl, hbound, rfl⟩ := Scope.slots_bound_eq_ok.mp hslots
  have hlt : ∀ i ∈ positionsFrom 0 (Binding.allAccept (scope.bindingsOf name)) items,
      i < items.length := by
    intro i hi
    have := mem_positionsFrom hi
    omega
  obtain ⟨left, rfl, hlength, hleft, hdone⟩ := settled_onSlots hhonest hsettles hpositional
    (nodup_positionsFrom _ _ _) hlt (fun i _ => hv.at _) h
  refine ⟨_, Scope.slots_bound_eq_ok.mpr ⟨left, rfl, fun hnone => ?_, rfl⟩, ?_⟩
  · rw [hbound hnone] at hlength
    exact List.length_eq_zero_iff.mp hlength
  · rw [List.forall_mem_map]
    intro i hi
    refine hdone i ?_
    by_contra hother
    obtain ⟨-, x, hx, haccepted⟩ := mem_positionsFrom_iff.mp hi
    refine hother (mem_positionsFrom_iff.mpr ⟨Nat.zero_le i, x, ?_, haccepted⟩)
    rw [← hx]
    exact (hleft i hother).symm

/-- **An edit that is repeated** has nothing to do. The step may name other slots then, but there is
nothing to do in any of them. -/
theorem edit_edit (hact : Repeatable creates act) {steps : List Step}
    (hsteps : ∀ step ∈ steps, step ≠ .matched) (hv : v.WellFormed)
    (h : v.edit scope creates act steps path = .ok (w, changed)) :
    w.edit scope creates act steps path = .ok (w, false) := by
  induction steps generalizing v w changed path with
  | nil => cases h; rfl
  | cons step rest ih =>
    rw [List.forall_mem_cons] at hsteps
    have hhonest : Honest (editSlot scope creates act rest path) := honest_editSlot hact
    have hsettles : Settles (editSlot scope creates act rest path) :=
      settles_editSlot hact fun _ _ _ _ hchild hedit => ih hsteps.2 hchild hedit
    rw [edit_eq] at h ⊢
    obtain ⟨slots, hslots, hfold⟩ := bind_eq_ok.mp h
    obtain ⟨slots', hslots', hdone⟩ : ∃ slots', scope.slots path step w = .ok slots' ∧
        ∀ slot ∈ slots', editSlot scope creates act rest path w slot = .ok (w, false) := by
      cases step with
      | matched => exact absurd rfl hsteps.1
      | key k => exact settled_key hhonest hsettles hv hslots hfold
      | bound name => exact settled_bound hhonest hsettles (positional_editSlot hact) hv hslots hfold
    rw [hslots']
    exact onSlots_of_settled hdone

end Value

/-! ## Updates -/

theorem Update.repeatable_act {u : Update} (hs : u.change.Settling) :
    Value.Repeatable u.change.creates u.act :=
  ⟨u.honest_act, Update.fills_act, Update.settles_act hs, u.positional_act⟩

namespace Query

variable {q : Query} {u : Update} {d d' : Document} {changed : Bool}

/-- **Repeating an update that does not accumulate changes nothing**, on a path of keys and
placeholders. -/
theorem edit_again (hq : q.updates = [u]) (hs : u.change.Settling)
    (hpath : ∀ step ∈ Step.ofPath u.field, step ≠ .matched) (hd : d.WellFormed)
    (h : q.edit d = .ok (d', changed)) : q.edit d' = .ok (d', false) := by
  rw [edit_single_eq_ok hq, Update.apply_eq] at h ⊢
  have hscope : ∀ step ∈ Step.ofPath u.field, ∀ path v,
      (q.scope d').slots path step v = (q.scope d).slots path step v := fun step hstep =>
    Scope.slots_eq_of_bindings (s := q.scope d') (t := q.scope d) rfl (hpath step hstep)
  rw [Value.edit_congr hscope]
  exact Value.edit_edit (Update.repeatable_act hs) hpath hd h

/-- Marks every row in state 1 with state 2. -/
def advanceRows : Query :=
  { updates := [⟨"rows.$[row].state", .assign (.int32 2)⟩],
    bindings := [⟨"row", "state", .int32 1⟩] }

/-- Rows in the states of a list. -/
def rowsIn (states : List Int32) : Document :=
  [("rows", .array (states.map fun state => .document [("state", .int32 state)]))]

theorem wellFormed_rowsIn (states : List Int32) : (rowsIn states).WellFormed := by
  have hstate (state : Int32) : (Value.int32 state).WellFormed := Value.wellFormed_of_isAtom rfl
  simp [rowsIn, Document.WellFormed, Entries.Distinct, Entries.keys, hstate]

/-- Two rows are advanced, and the placeholder stands for none of them afterwards. -/
theorem edit_again_rows :
    (Change.assign (.int32 2)).Settling ∧
      (∀ step ∈ Step.ofPath "rows.$[row].state", step ≠ .matched) ∧
      (rowsIn [1, 3, 1]).WellFormed ∧
      advanceRows.edit (rowsIn [1, 3, 1]) = .ok (rowsIn [2, 3, 2], true) ∧
      advanceRows.edit (rowsIn [2, 3, 2]) = .ok (rowsIn [2, 3, 2], false) := by
  have hsettling : (Change.assign (.int32 2)).Settling := by
    refine ⟨rfl, fun v hv => ?_⟩
    cases hv
    exact ⟨Value.wellFormed_of_isAtom rfl, (Value.everywhere_of_isAtom rfl).mpr trivial⟩
  have hpath : ∀ step ∈ Step.ofPath "rows.$[row].state", step ≠ .matched := by decide
  have hedit : advanceRows.edit (rowsIn [1, 3, 1]) = .ok (rowsIn [2, 3, 2], true) := rfl
  exact ⟨hsettling, hpath, wellFormed_rowsIn _, hedit,
    edit_again rfl hsettling hpath (wellFormed_rowsIn _) hedit⟩

end Query

end Dossier
