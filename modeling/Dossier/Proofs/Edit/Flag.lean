import Mathlib
import Dossier.Proofs.Edit.OneByOne
import Dossier.Proofs.Value.Differ

/-!
# What the flag of an edit tells

An edit tells whether any of its acts made a difference.

* **`Value.Told`**, `Value.ToldAt`: a flag is true of a change of a value, or of one slot;
* `Value.editSlot`, `Value.edit_eq`: an edit as one of every slot that its first step names;
* **`Value.told_edit`**: a single edit tells the truth, however many slots it acts on;
* **`Query.Departs`**, **`Query.edit_changed_iff`**: a query tells whether its document differed on
  the way, and `Query.eq_of_edit_unchanged`: if it tells of no change there is none.
-/

namespace Dossier

namespace Value

/-! ## Flags -/

/-- Whether a flag is true of a change of `v`: without it the value stays, with it the result is not
the same. -/
structure Told (v : Value) (r : Value × Bool) : Prop where
  kept : r.2 = false → r.1 = v
  differs : r.2 = true → v.same r.1 = false

/-- Whether a value comes from another by different contents in one slot. -/
inductive Altered : Value → Slot → Value → Prop
  | put {v w new : Value} {slot : Slot} :
      slot.holds v new = false → v.put slot new = .ok w → Altered v slot w
  | erase {fields : Document} {k : String} :
      fields.contains k = true → Altered (document fields) (.key k) (document (fields.erase k))

/-- Whether a flag is true of a change of `v` in one slot. -/
structure ToldAt (v : Value) (slot : Slot) (r : Value × Bool) : Prop where
  kept : r.2 = false → r.1 = v
  altered : r.2 = true → Altered v slot r.1

theorem Told.unchanged (v : Value) : Told v (v, false) := ⟨fun _ => rfl, nofun⟩

theorem ToldAt.unchanged (v : Value) (slot : Slot) : ToldAt v slot (v, false) :=
  ⟨fun _ => rfl, nofun⟩

variable {v w : Value} {slot : Slot} {r : Value × Bool}

theorem putItem_of_lt {items : List Value} {i : Nat} (h : i < items.length) (new : Value) :
    putItem items i new = items.set i new := by
  rw [putItem, Nat.sub_eq_zero_of_le h, List.replicate_zero, List.append_nil]

theorem put_of_inSlot? {child : Value} (h : v.inSlot? slot = some child) :
    v.put slot child = .ok v := by
  cases v <;> cases slot <;> first | cases h | skip
  case document.key fields k => rw [put, Entries.insert_of_find? h]
  case array.index items i =>
    obtain ⟨hi, rfl⟩ := List.getElem?_eq_some_iff.mp h
    rw [put, putItem_of_lt hi, List.set_getElem_self]

theorem Altered.exists_item {items : List Value} {i : Nat} (h : Altered (array items) (.index i) w)
    (hi : i < items.length) : ∃ new, items[i].same new = false ∧ w = array (items.set i new) := by
  cases h with
  | @put _ _ new _ hholds hput =>
    rw [Slot.holds, inSlot?, List.getElem?_eq_getElem hi] at hholds
    rw [Value.put, putItem_of_lt hi] at hput
    cases hput
    exact ⟨new, hholds, rfl⟩

theorem Altered.same (h : Altered v slot w) : v.same w = false := by
  cases h with
  | @put _ _ new _ hholds hput =>
    cases v <;> cases slot <;> cases hput
    case document.key.refl fields k =>
      cases hk : Entries.find? fields k with
      | none =>
        refine same_document_of_length ?_
        rw [Entries.length_insert_of_find?_eq_none hk]
        exact (Nat.succ_ne_self _).symm
      | some x =>
        rw [Slot.holds, inSlot?, hk] at hholds
        refine same_document_of_find? hk fun y hy => ?_
        rw [Entries.find?_insert_self] at hy
        cases hy
        exact hholds
    case array.index.refl items i =>
      by_cases hi : i < items.length
      · rw [Slot.holds, inSlot?, List.getElem?_eq_getElem hi] at hholds
        rw [putItem_of_lt hi]
        exact same_array_of_getElem? (List.getElem?_eq_getElem hi)
          (List.getElem?_set_self hi) hholds
      · refine same_array_of_length ?_
        rw [putItem, List.length_set, List.length_append, List.length_replicate]
        omega
  | @erase fields k hk =>
    have hlength := Entries.length_erase hk
    exact same_document_of_length (by omega)

theorem ToldAt.told (h : ToldAt v slot r) : Told v r := ⟨h.kept, fun hr => (h.altered hr).same⟩

/-- **An effect** on a slot tells the truth. -/
theorem told_perform {effect : Effect} (h : v.perform slot effect = .ok r) : ToldAt v slot r := by
  cases effect with
  | keep =>
    cases h
    exact .unchanged v slot
  | fill new =>
    rw [perform] at h
    split at h
    case isTrue =>
      cases h
      exact .unchanged v slot
    case isFalse hholds =>
      obtain ⟨w, hput, rfl⟩ := map_eq_ok.mp h
      exact ⟨fun hflag => (by cases hflag), fun _ => .put (by simpa using hholds) hput⟩
  | clear =>
    have hr : v.clear slot = r := Except.ok.inj h
    cases v <;> cases slot <;> try (subst hr; exact .unchanged _ _)
    case document.key fields k =>
      subst hr
      refine ⟨fun hk => ?_, fun hk => .erase hk⟩
      have hnone : Entries.find? fields k = none := by simpa [clear, Entries.contains] using hk
      rw [clear, Entries.erase_of_find?_eq_none hnone]
    case array.index items i =>
      rw [clear] at hr
      split at hr
      case isFalse => subst hr; exact .unchanged _ _
      case isTrue hany =>
        subst hr
        obtain ⟨x, hx, hnull⟩ := (Option.any_eq_true _ _).mp hany
        obtain ⟨hi, -⟩ := List.getElem?_eq_some_iff.mp hx
        refine ⟨fun hflag => (by cases hflag), fun _ => @Altered.put _ _ null _ ?_ ?_⟩
        · rw [Slot.holds, inSlot?, hx]
          simpa using hnull
        · rw [put, putItem_of_lt hi]

/-! ## One slot -/

section Edit

variable (scope : Scope) (creates : Bool) (act : Value → Slot → Except UpdateError (Value × Bool))

/-- What an edit does to one of the slots that its first step names, with the rest of its steps. -/
def editSlot (rest : List Step) (path : Path) (v : Value) (slot : Slot) :
    Except UpdateError (Value × Bool) :=
  if rest.isEmpty then act v slot
  else do
    match ← v.enter? creates slot with
    | none => return (v, false)
    | some child =>
      let (child, acted) ← child.edit scope creates act rest (path ++ [slot.segment])
      return (← v.put slot child, acted)

/-- Does something to slots one after the other. -/
def onSlots (f : Value → Slot → Except UpdateError (Value × Bool)) (slots : List Slot)
    (start : Value × Bool) : Except UpdateError (Value × Bool) :=
  slots.foldlM (fun s slot => (f s.1 slot).map fun r => (r.1, s.2 || r.2)) start

theorem onSlots_singleton (f : Value → Slot → Except UpdateError (Value × Bool)) (slot : Slot)
    (v : Value) : onSlots f [slot] (v, false) = f v slot := by
  rw [onSlots, List.foldlM_cons]
  cases f v slot <;> simp [Except.map, bind, Except.bind, pure, Except.pure]

theorem edit_eq (step : Step) (rest : List Step) (path : Path) (v : Value) :
    v.edit scope creates act (step :: rest) path = scope.slots path step v >>= fun slots =>
      onSlots (editSlot scope creates act rest path) slots (v, false) := by
  rw [edit]
  refine congrArg (scope.slots path step v >>= ·) (funext fun slots => ?_)
  refine congrArg (fun f => slots.foldlM f (v, false)) ?_
  funext start slot
  obtain ⟨now, changed⟩ := start
  dsimp only
  rw [editSlot]
  by_cases hrest : rest.isEmpty = true
  · rw [if_pos hrest, if_pos hrest]
  · rw [if_neg hrest, if_neg hrest]
    cases now.enter? creates slot with
    | error cause => rfl
    | ok entered =>
      cases entered with
      | none => simp [bind, Except.bind, pure, Except.pure, Except.map]
      | some child =>
        simp only [bind, Except.bind]
        cases child.edit scope creates act rest (path ++ [slot.segment]) with
        | error cause => rfl
        | ok edited =>
          simp only
          cases now.put slot edited.1 <;> rfl

variable {scope creates act} {rest : List Step} {path : Path} {v child : Value} {slot : Slot}
  {r : Value × Bool}

theorem editSlot_of_enter?_error {cause : UpdateError} (hrest : rest ≠ [])
    (h : v.enter? creates slot = .error cause) :
    editSlot scope creates act rest path v slot = .error cause := by
  rw [editSlot, if_neg (by simpa using hrest), h]
  rfl

theorem editSlot_of_enter?_none (hrest : rest ≠ []) (h : v.enter? creates slot = .ok none) :
    editSlot scope creates act rest path v slot = .ok (v, false) := by
  rw [editSlot, if_neg (by simpa using hrest), h]
  rfl

theorem editSlot_of_enter?_some (hrest : rest ≠ []) (h : v.enter? creates slot = .ok (some child)) :
    editSlot scope creates act rest path v slot =
      child.edit scope creates act rest (path ++ [slot.segment]) >>= fun edited =>
        v.put slot edited.1 >>= fun w => .ok (w, edited.2) := by
  rw [editSlot, if_neg (by simpa using hrest), h]
  rfl

/-- **What an edit does to one slot**: it acts on it at the end of the path, finds nothing there to
go on in, or edits the value inside and puts it back. -/
theorem editSlot_cases (h : editSlot scope creates act rest path v slot = .ok r) :
    (rest = [] ∧ act v slot = .ok r) ∨
      (rest ≠ [] ∧ v.enter? creates slot = .ok none ∧ r = (v, false)) ∨
      ∃ child child', rest ≠ [] ∧ v.enter? creates slot = .ok (some child) ∧
        child.edit scope creates act rest (path ++ [slot.segment]) = .ok (child', r.2) ∧
        v.put slot child' = .ok r.1 := by
  by_cases hrest : rest = []
  · subst hrest
    exact .inl ⟨rfl, h⟩
  cases henter : v.enter? creates slot with
  | error cause =>
    rw [editSlot_of_enter?_error hrest henter] at h
    cases h
  | ok entered =>
    cases entered with
    | none =>
      rw [editSlot_of_enter?_none hrest henter] at h
      cases h
      exact .inr (.inl ⟨hrest, rfl, rfl⟩)
    | some child =>
      rw [editSlot_of_enter?_some hrest henter] at h
      obtain ⟨⟨child', acted⟩, hedit, h⟩ := bind_eq_ok.mp h
      obtain ⟨w, hput, h⟩ := bind_eq_ok.mp h
      cases h
      exact .inr (.inr ⟨child, child', hrest, rfl, hedit, hput⟩)

end Edit

section Truth

variable {scope : Scope} {creates : Bool} {act : Value → Slot → Except UpdateError (Value × Bool)}
  {steps rest : List Step} {path : Path}

/-- Whether an act tells the truth about every slot. -/
def Honest (act : Value → Slot → Except UpdateError (Value × Bool)) : Prop :=
  ∀ v slot r, act v slot = .ok r → ToldAt v slot r

/-- Whether an act always makes a difference in an empty document. -/
def Fills (act : Value → Slot → Except UpdateError (Value × Bool)) : Prop :=
  ∀ k r, act (document []) (.key k) = .ok r → r.2 = true

theorem enter?_eq_some {child : Value} (h : v.enter? creates slot = .ok (some child)) :
    v.inSlot? slot = some child ∨
      (creates = true ∧ v.inSlot? slot = none ∧ child = document []) := by
  cases v <;> cases slot <;> try cases h
  case document.key fields k =>
    rw [enter?] at h
    rw [inSlot?]
    cases hk : Entries.find? fields k with
    | some found =>
      rw [hk] at h
      cases h
      exact .inl rfl
    | none =>
      rw [hk] at h
      cases creates <;> cases h
      exact .inr ⟨rfl, rfl, rfl⟩
  case array.index items i => exact .inl (Except.ok.inj h)

theorem edit_empty (hact : Fills act) (hsteps : steps ≠ [])
    (h : (document []).edit scope true act steps path = .ok r) : r.2 = true := by
  induction steps generalizing path r with
  | nil => exact absurd rfl hsteps
  | cons step rest ih =>
    cases step with
    | matched => obtain ⟨slots, hs, -⟩ := bind_eq_ok.mp h; cases hs
    | bound name => obtain ⟨slots, hs, -⟩ := bind_eq_ok.mp h; cases hs
    | key k =>
      obtain ⟨w, changed⟩ := r
      obtain ⟨slot, rfl | ⟨items, i, hitems, -⟩, hcases⟩ := edit_key_cases h
      case inr => cases hitems
      obtain ⟨-, hr⟩ | ⟨-, henter, -⟩ | ⟨child, child', hrest, henter, hchild, -⟩ := hcases
      · exact hact k _ hr
      · cases henter
      · cases henter
        exact ih (r := (child', changed)) hrest hchild

theorem told_editSlot (hact : Honest act) (hfills : creates = true → Fills act)
    (hrest : ∀ path child r, child.edit scope creates act rest path = .ok r → Told child r)
    (h : v.editSlot scope creates act rest path slot = .ok r) : ToldAt v slot r := by
  obtain ⟨-, hr⟩ | ⟨-, -, rfl⟩ | ⟨child, child', hsteps, henter, hedit, hput⟩ := editSlot_cases h
  case inl => exact hact v slot r hr
  case inr.inl => exact .unchanged v slot
  have htold : Told child (child', r.2) := hrest _ child _ hedit
  obtain hin | ⟨rfl, hin, rfl⟩ := enter?_eq_some henter
  · refine ⟨fun hacted => ?_, fun hacted => .put ?_ hput⟩
    · obtain rfl : child' = child := htold.kept hacted
      rw [put_of_inSlot? hin] at hput
      exact (Except.ok.inj hput).symm
    · rw [Slot.holds, hin]
      exact htold.differs hacted
  · have hacted : r.2 = true := edit_empty (r := (child', r.2)) (hfills rfl) hsteps hedit
    refine ⟨fun hkept => ?_, fun _ => .put ?_ hput⟩
    · rw [hacted] at hkept
      cases hkept
    · rw [Slot.holds, hin]
      rfl

/-! ## All slots -/

theorem mem_positionsFrom_iff {test : Value → Bool} {items : List Value} {start i : Nat} :
    i ∈ positionsFrom start test items ↔
      start ≤ i ∧ ∃ v, items[i - start]? = some v ∧ test v = true := by
  induction items generalizing start with
  | nil => simp [positionsFrom]
  | cons v rest ih =>
    have hsplit : (start ≤ i ∧ ∃ w, (v :: rest)[i - start]? = some w ∧ test w = true) ↔
        (i = start ∧ test v = true) ∨
          (start + 1 ≤ i ∧ ∃ w, rest[i - (start + 1)]? = some w ∧ test w = true) := by
      obtain hlt | rfl | hlt := Nat.lt_trichotomy i start
      · omega
      · simp
      · have hi : i - start = i - (start + 1) + 1 := by omega
        rw [hi, List.getElem?_cons_succ]
        simp [hlt.le, hlt.ne', Nat.succ_le_of_lt hlt]
    rw [hsplit, ← ih, positionsFrom]
    by_cases htest : test v = true <;> simp [htest]

theorem mem_positionsFrom {test : Value → Bool} {items : List Value} {start i : Nat}
    (h : i ∈ positionsFrom start test items) : start ≤ i ∧ i < start + items.length := by
  obtain ⟨hle, v, hv, -⟩ := mem_positionsFrom_iff.mp h
  have hlt := (List.getElem?_eq_some_iff.mp hv).1
  omega

theorem nodup_positionsFrom (test : Value → Bool) (items : List Value) (start : Nat) :
    (positionsFrom start test items).Nodup := by
  induction items generalizing start with
  | nil => exact List.nodup_nil
  | cons v rest ih =>
    rw [positionsFrom]
    split
    · refine List.nodup_cons.mpr ⟨fun h => ?_, ih _⟩
      have := mem_positionsFrom h
      omega
    · exact ih _

theorem slots_cases {step : Step} {slots : List Slot} (h : scope.slots path step v = .ok slots) :
    (∃ slot, slots = [slot]) ∨
      ∃ items, ∃ is : List Nat, v = array items ∧ slots = is.map .index ∧ is.Nodup ∧
        ∀ i ∈ is, i < items.length := by
  cases step with
  | key k =>
    obtain ⟨slot, rfl, -⟩ := Scope.slots_key_cases h
    exact .inl ⟨slot, rfl⟩
  | matched =>
    cases v <;> try cases h
    case array items =>
      obtain ⟨i, -, rfl⟩ := map_eq_ok.mp h
      exact .inl ⟨_, rfl⟩
  | bound name =>
    cases v <;> try cases h
    case array items =>
      rw [Scope.slots] at h
      split at h
      · cases h
      · cases h
        refine .inr ⟨items, _, rfl, rfl, nodup_positionsFrom _ _ _, fun i hi => ?_⟩
        have := mem_positionsFrom hi
        omega

/-- Acts on positions of an array tell the truth together. Each position is met once, so that what
an act told of it stays true. -/
theorem told_onSlots {f : Value → Slot → Except UpdateError (Value × Bool)} (hf : Honest f)
    {items now : List Value} {acted : Bool} {is : List Nat} (hnodup : is.Nodup)
    (hlt : ∀ i ∈ is, i < items.length) (hlength : now.length = items.length)
    (hleft : ∀ i ∈ is, now[i]? = items[i]?) (htold : Told (array items) (array now, acted))
    (h : onSlots f (is.map .index) (array now, acted) = .ok r) : Told (array items) r := by
  induction is generalizing now acted with
  | nil =>
    cases h
    exact htold
  | cons i is ih =>
    obtain ⟨hi, hnodup⟩ := List.nodup_cons.mp hnodup
    rw [List.forall_mem_cons] at hlt hleft
    rw [onSlots, List.map_cons, List.foldlM_cons] at h
    obtain ⟨next, hnext, h⟩ := bind_eq_ok.mp h
    obtain ⟨⟨w, changed⟩, hw, rfl⟩ := map_eq_ok.mp hnext
    have hat : ToldAt (array now) (.index i) (w, changed) := hf _ _ _ hw
    cases changed with
    | false =>
      obtain rfl : w = array now := hat.kept rfl
      rw [Bool.or_false] at h
      exact ih hnodup hlt.2 hlength hleft.2 htold h
    | true =>
      have hinow : i < now.length := hlength ▸ hlt.1
      obtain ⟨new, hnew, rfl⟩ := (hat.altered rfl).exists_item hinow
      have hitem : items[i]? = some now[i] := by
        rw [← hleft.1, List.getElem?_eq_getElem hinow]
      refine ih hnodup hlt.2 (by rw [List.length_set, hlength]) (fun j hj => ?_) ?_ h
      · have hij : i ≠ j := fun hij => hi (hij ▸ hj)
        rw [List.getElem?_set_ne hij, hleft.2 j hj]
      · exact ⟨by simp, fun _ =>
          same_array_of_getElem? hitem (List.getElem?_set_self hinow) hnew⟩

/-- **A single edit tells the truth** about the whole value. -/
theorem told_edit (hact : Honest act) (hfills : creates = true → Fills act)
    (h : v.edit scope creates act steps path = .ok r) : Told v r := by
  induction steps generalizing v path r with
  | nil =>
    cases h
    exact .unchanged v
  | cons step rest ih =>
    have hslot : Honest (editSlot scope creates act rest path) :=
      fun v slot r hr => told_editSlot hact hfills (fun _ _ _ hchild => ih hchild) hr
    rw [edit_eq] at h
    obtain ⟨slots, hs, h⟩ := bind_eq_ok.mp h
    obtain ⟨slot, rfl⟩ | ⟨items, is, rfl, rfl, hnodup, hlt⟩ := slots_cases hs
    · rw [onSlots_singleton] at h
      exact (hslot v slot r h).told
    · exact told_onSlots hslot hnodup hlt rfl (fun _ _ => rfl) (.unchanged _) h

end Truth

end Value

/-! ## Updates -/

theorem Update.honest_act (u : Update) : Value.Honest u.act := by
  intro v slot r h
  obtain ⟨effect, -, h⟩ := bind_eq_ok.mp h
  exact Value.told_perform h

theorem Change.exists_fill {change : Change} {field : String} {effect : Effect}
    (hc : change.creates = true) (h : change.effect field none = .ok effect) :
    ∃ v, effect = .fill v := by
  cases change <;> cases hc
  case increment amount | multiply amount =>
    obtain ⟨result, -, h⟩ := bind_eq_ok.mp h
    cases h
    exact ⟨_, rfl⟩
  all_goals cases h; exact ⟨_, rfl⟩

theorem Update.fills_act {u : Update} (hc : u.change.creates = true) : Value.Fills u.act := by
  intro k r h
  obtain ⟨effect, heffect, h⟩ := bind_eq_ok.mp h
  obtain ⟨v, rfl⟩ := Change.exists_fill hc heffect
  cases h
  rfl

/-- **One update tells the truth**, placeholders with many elements included. -/
theorem Update.told_apply {u : Update} {scope : Scope} {v : Value} {r : Value × Bool}
    (h : u.apply scope v = .ok r) : v.Told r :=
  Value.told_edit u.honest_act Update.fills_act h

/-! ## Queries -/

namespace Query

section Steps

variable {scope : Scope} {us : List Update} {v w : Value} {s : Value × Bool} {changed : Bool}

theorem eq_of_foldlM_step (h : us.foldlM (step scope) (v, false) = .ok (w, false)) : w = v := by
  have hkept : ((w, false) : Value × Bool).2 = false → w = v := by
    refine foldlM_keeps (P := fun s => s.2 = false → s.1 = v) ?_ (fun _ => rfl) h
    intro s u s' _ hs hstep hs'
    obtain ⟨r, hr, hstep⟩ := bind_eq_ok.mp hstep
    cases hstep
    obtain ⟨hflag, hacted⟩ := Bool.or_eq_false_iff.mp hs'
    have hr1 : r.1 = s.1 := (Update.told_apply hr).kept hacted
    rw [hr1, hs hflag]
  exact hkept rfl

theorem flag_of_foldlM_step (h : us.foldlM (step scope) s = .ok (w, changed)) (hs : s.2 = true) :
    changed = true := by
  refine foldlM_keeps (P := fun s => s.2 = true) ?_ hs h
  intro s u s' _ hs hstep
  obtain ⟨r, -, hstep⟩ := bind_eq_ok.mp hstep
  cases hstep
  rw [hs, Bool.true_or]

/-- With a flag at the end the first update that made a difference left another value. -/
theorem exists_prefix_of_foldlM_step (h : us.foldlM (step scope) (v, false) = .ok (w, true)) :
    ∃ first e c, first <+: us ∧ first.foldlM (step scope) (v, false) = .ok (e, c) ∧
      v.same e = false := by
  induction us with
  | nil => cases h
  | cons u us ih =>
    rw [List.foldlM_cons] at h
    obtain ⟨next, hnext, hlater⟩ := bind_eq_ok.mp h
    obtain ⟨⟨e, acted⟩, happly, hstep⟩ := bind_eq_ok.mp hnext
    cases hstep
    have htold := Update.told_apply happly
    rw [Bool.false_or] at hlater hnext
    cases acted with
    | true =>
      refine ⟨[u], e, true, by simp, ?_, htold.differs rfl⟩
      rw [List.foldlM_cons, hnext]
      rfl
    | false =>
      obtain rfl : e = v := htold.kept rfl
      obtain ⟨first, e', c, hfirst, hrun, hdiffers⟩ := ih hlater
      refine ⟨u :: first, e', c, List.cons_prefix_cons.mpr ⟨rfl, hfirst⟩, ?_, hdiffers⟩
      rw [List.foldlM_cons, hnext]
      exact hrun

theorem exists_document_of_foldlM_step {d : Document} {r : Value × Bool}
    (h : us.foldlM (step scope) (.document d, false) = .ok r) : ∃ fields, r.1 = .document fields := by
  refine foldlM_keeps (P := fun s => ∃ fields, s.1 = .document fields) ?_ ⟨d, rfl⟩ h
  rintro s u s' - ⟨fields, hs⟩ hstep
  obtain ⟨applied, happly, hstep⟩ := bind_eq_ok.mp hstep
  cases hstep
  rw [hs] at happly
  exact Update.apply_document happly

end Steps

variable {q : Query} {d d' : Document} {changed : Bool}

theorem edit_eq_ok : q.edit d = .ok (d', changed) ↔
    q.updates.foldlM (step (q.scope d)) (.document d, false) = .ok (.document d', changed) := by
  rw [edit_eq, map_eq_ok]
  constructor
  · rintro ⟨⟨v, acted⟩, hr, hd⟩
    obtain ⟨fields, rfl⟩ : ∃ fields, v = .document fields := exists_document_of_foldlM_step hr
    cases hd
    exact hr
  · exact fun hr => ⟨_, hr, rfl⟩

theorem edit_single_eq_ok {u : Update} (hq : q.updates = [u]) : q.edit d = .ok (d', changed) ↔
    u.apply (q.scope d) (.document d) = .ok (.document d', changed) := by
  rw [edit_single hq, map_eq_ok]
  constructor
  · rintro ⟨⟨v, acted⟩, happly, hd⟩
    obtain ⟨fields, rfl⟩ : ∃ fields, v = .document fields := Update.apply_document happly
    cases hd
    exact happly
  · exact fun happly => ⟨_, happly, rfl⟩

/-- Whether the updates of a query lead to another document on their way: some first ones of them
do. -/
def Departs (q : Query) (d : Document) : Prop :=
  ∃ updates e c, updates <+: q.updates ∧
    ({ q with updates } : Query).edit d = .ok (e, c) ∧ d.same e = false

/-- **Without a flag** the document stays as it is. -/
theorem eq_of_edit_unchanged (h : q.edit d = .ok (d', false)) : d' = d := by
  have heq := eq_of_foldlM_step (edit_eq_ok.mp h)
  injection heq

/-- **The flag tells whether the document differed on the way**, not whether it does in the end. -/
theorem edit_changed_iff (hw : d.WellFormed) (hn : (Value.document d).NaNFree)
    (h : q.edit d = .ok (d', changed)) : changed = true ↔ q.Departs d := by
  have hrun := edit_eq_ok.mp h
  constructor
  · rintro rfl
    obtain ⟨updates, e, c, hprefix, hfirst, hdiffers⟩ := exists_prefix_of_foldlM_step hrun
    obtain ⟨fields, rfl⟩ : ∃ fields, e = .document fields := exists_document_of_foldlM_step hfirst
    exact ⟨updates, fields, c, hprefix, edit_eq_ok.mpr hfirst, hdiffers⟩
  · rintro ⟨updates, e, c, ⟨later, hlater⟩, hfirst, hdiffers⟩
    have hfirst := edit_eq_ok.mp hfirst
    rw [← hlater, List.foldlM_append] at hrun
    obtain ⟨mid, hmid, hrun⟩ := bind_eq_ok.mp hrun
    rw [show q.scope d = ({ q with updates } : Query).scope d from rfl, hfirst] at hmid
    cases hmid
    cases c with
    | true => exact flag_of_foldlM_step hrun rfl
    | false =>
      -- Without a flag nothing differed so far, but a value without NaN is the same as itself.
      have he := eq_of_foldlM_step hfirst
      have hsame : (Value.document d).same (.document d) = true := Value.same_self hw hn
      rw [Document.same, he, hsame] at hdiffers
      cases hdiffers

end Query

end Dossier
