import Mathlib
import Dossier.Proofs.Codebook.Probe
import Dossier.Proofs.Edit.Slots
import Dossier.Proofs.Fragment.Readers

/-!
# What removals take

The two removals of elements, by value and by conditions, differ in the elements that they take and
in nothing else.

* `Change.effect_of_removal`: the effect of a removal, by what it takes;
* **`Value.exists_takes_ne`**: a value and conditions never take the same elements, unless they take
  none: conditions do not see a further key, and a value does;
* `Update.Differ`: updates that make different things of some document;
* **`Update.exists_takes_of_differ`**, **`Update.differ_of_takes_ne`**: removals that differ take
  something, and they do differ if one takes what the other one leaves.
-/

namespace Dossier

/-! ## Further keys -/

namespace Document

variable {d e : Document} {key : String} {x : Value} {p : Path} {cs : List Condition}

theorem reach_insert_of_ne (h : p.head? ≠ some key) : reach (Entries.insert d key x) p = d.reach p := by
  cases p with
  | nil => rfl
  | cons k rest =>
    have hne : key ≠ k := fun hk => h (by rw [hk, List.head?_cons])
    rw [reach, reach, Entries.find?_insert_of_ne d hne]

theorem wellFormed_insert (hd : d.WellFormed) (hx : x.WellFormed) (key : String) :
    WellFormed (Entries.insert d key x) := by
  obtain ⟨hdistinct, hfields⟩ := Value.wellFormed_document.mp hd
  refine Value.wellFormed_document.mpr ⟨Entries.distinct_insert hdistinct key x, fun field hfield => ?_⟩
  obtain rfl | hfield := Entries.mem_insert hfield
  · exact hx
  · exact hfields field hfield

end Document

namespace Condition

variable {d e : Document} {key : String} {x : Value} {c : Condition} {cs : List Condition}

theorem holds_congr (h : d.reach (Dotted.segments c.field) = e.reach (Dotted.segments c.field)) :
    c.holds d = c.holds e := by
  cases c with
  | compare field relation operand =>
    rw [Condition.field] at h
    cases relation <;> simp only [holds, Document.compareAt, Document.equalsAt, Document.orderedAt,
      Document.candidates, h]
  | present field expected =>
    rw [Condition.field] at h
    rw [holds, holds, h]
  | member field operands expected =>
    rw [Condition.field] at h
    have hequals : d.equalsAt (Dotted.segments field) = e.equalsAt (Dotted.segments field) := by
      funext operand
      simp only [Document.equalsAt, Document.candidates, h]
    rw [holds, holds, hequals]
  | element field conditions =>
    rw [Condition.field] at h
    rw [holds, holds, Document.elementsAt, Document.elementsAt, h]

theorem allHold_insert (h : ∀ c ∈ cs, (Dotted.segments c.field).head? ≠ some key) :
    Condition.allHold cs (Entries.insert d key x) = Condition.allHold cs d := by
  rw [Bool.eq_iff_iff, allHold_iff, allHold_iff]
  refine forall₂_congr fun c hc => ?_
  rw [holds_congr (Document.reach_insert_of_ne (h c hc))]

theorem exists_fresh (cs : List Condition) (d : Document) : ∃ key, Entries.find? d key = none ∧
    ∀ c ∈ cs, (Dotted.segments c.field).head? ≠ some key := by
  obtain ⟨key, hkey⟩ := Infinite.exists_notMem_finset
    (Entries.keys d ++ cs.filterMap fun c => (Dotted.segments c.field).head?).toFinset
  rw [List.mem_toFinset, List.mem_append, not_or] at hkey
  refine ⟨key, Entries.find?_eq_none_iff.mpr hkey.1, fun c hc hhead => hkey.2 ?_⟩
  exact List.mem_filterMap.mpr ⟨c, hc, hhead⟩

end Condition

namespace Value

variable {v : Value} {d : Document} {cs : List Condition}

theorem exists_document_of_alike (h : v.alike (document d) = true) :
    ∃ e : Document, v = document e ∧ e.length = d.length := by
  cases v
  case document e =>
    rw [alike, Bool.and_eq_true, beq_iff_eq] at h
    exact ⟨e, rfl, h.1⟩
  all_goals cases h

/-- **A value and conditions that take anything** take different elements: one that passes the
conditions and is alike to the value still passes them with a further key. -/
theorem exists_takes_ne (hv : v.WellFormed)
    (h : v.alike (document d) = true ∨ Change.passes cs v = true) :
    ∃ item : Value, item.WellFormed ∧ item.alike (document d) ≠ Change.passes cs item := by
  by_cases hsame : v.alike (document d) = Change.passes cs v
  case neg => exact ⟨v, hv, hsame⟩
  have halike : v.alike (document d) = true := h.elim id fun hpasses => hsame.trans hpasses
  obtain ⟨e, rfl, hlength⟩ := exists_document_of_alike halike
  obtain ⟨key, hkey, hfresh⟩ := Condition.exists_fresh cs e
  refine ⟨document (Entries.insert e key null),
    Document.wellFormed_insert hv (wellFormed_of_isAtom rfl) key, fun heq => ?_⟩
  have hpasses : Change.passes cs (document (Entries.insert e key null)) = true := by
    rw [Change.passes, Condition.allHold_insert hfresh]
    exact hsame.symm.trans halike
  obtain ⟨e', he', hlength'⟩ := exists_document_of_alike (heq.trans hpasses)
  cases he'
  rw [Entries.length_insert_of_find?_eq_none hkey, hlength] at hlength'
  exact absurd hlength' (Nat.succ_ne_self _)

end Value

/-! ## Removals of elements -/

/-- **A removal of elements**, by value or by conditions, shortens an array by what it takes. -/
theorem Change.effect_of_removal {change : Change} (hop : change.op = .removeFromArray)
    (field : String) (existing : Option Value) : change.effect field existing =
      shorten .removeFromArray field (List.filter (!change.operand.takes ·)) existing := by
  cases change <;> try cases hop
  case pull v => rfl
  case pullMatching conditions =>
    rw [takes_operand_pullMatching]
    rfl

theorem Change.creates_of_removal {change : Change} (hop : change.op = .removeFromArray) :
    change.creates = false := by
  cases change <;> first | rfl | cases hop

/-- In an array of one element it is seen what a removal takes. -/
theorem Update.exists_act_removal {u : Update} (hop : u.change.op = .removeFromArray) (item : Value) :
    ∃ y, ∀ k, u.act (.document [(k, .array [item])]) (.key k) =
      .ok (.document [(k, y)], u.change.operand.takes item) := by
  have hslot (k : String) :
      (Value.document [(k, .array [item])]).inSlot? (.key k) = some (.array [item]) := by
    rw [Value.inSlot?, Entries.find?_cons, if_pos rfl]
  cases htakes : u.change.operand.takes item with
  | false =>
    have hkept : List.filter (!u.change.operand.takes ·) [item] = [item] := by simp [htakes]
    refine ⟨.array [item], fun k => ?_⟩
    rw [Update.act, hslot, Change.effect_of_removal hop, Change.shorten, hkept]
    rfl
  | true =>
    have hkept : List.filter (!u.change.operand.takes ·) [item] = [] := by simp [htakes]
    refine ⟨.array [], fun k => ?_⟩
    have hholds : (Slot.key k).holds (.document [(k, .array [item])]) (.array []) = false := by
      rw [Slot.holds, hslot]
      rfl
    rw [Update.act, hslot, Change.effect_of_removal hop, Change.shorten, hkept]
    simp [bind, Except.bind, Value.perform, hholds, Value.put, Entries.insert, Except.map]

namespace Value

section Nested

variable {scope : Scope} {creates : Bool} {act : Value → Slot → Except UpdateError (Value × Bool)}
  {x y : Value} {changed : Bool}

theorem edit_nest (hact : ∀ k, act (document [(k, x)]) (.key k) = .ok (document [(k, y)], changed))
    {p : Path} (hp : p ≠ []) (path : Path) :
    (nest p x).edit scope creates act (p.map .key) path = .ok (nest p y, changed) := by
  induction p generalizing path with
  | nil => exact absurd rfl hp
  | cons k p ih =>
    rw [nest_cons, nest_cons, List.map_cons]
    by_cases hnil : p = []
    · subst hnil
      rw [List.map_nil, edit_last (Scope.slots_key_document _ _ _ _)]
      exact hact k
    · have henter : (document [(k, nest p x)]).enter? creates (.key k) = .ok (some (nest p x)) := by
        rw [enter?, Entries.find?_cons, if_pos rfl]
      rw [edit_cons (Scope.slots_key_document _ _ _ _) (by simpa using hnil), henter]
      simp [bind, Except.bind, ih hnil, put, Entries.insert, pure, Except.pure]

end Nested

/-! ## Acts without effect -/

/-- Whether two acts on well-formed values are the same and without effect. -/
structure IdleAlike (f g : Value → Slot → Except UpdateError (Value × Bool)) : Prop where
  agree : ∀ v slot, v.WellFormed → f v slot = g v slot
  idle : ∀ v slot r, v.WellFormed → f v slot = .ok r → r = (v, false)

section Idle

variable {scope : Scope} {f g act act' : Value → Slot → Except UpdateError (Value × Bool)}
  {v : Value}

theorem IdleAlike.onSlots (h : IdleAlike f g) (hv : v.WellFormed) (slots : List Slot) :
    onSlots f slots (v, false) = onSlots g slots (v, false) ∧
      ∀ r, onSlots f slots (v, false) = .ok r → r = (v, false) := by
  induction slots with
  | nil => exact ⟨rfl, fun r hr => by cases hr; rfl⟩
  | cons slot slots ih =>
    rw [Value.onSlots, Value.onSlots, List.foldlM_cons, List.foldlM_cons, ← h.agree v slot hv]
    cases hslot : f v slot with
    | error cause => exact ⟨rfl, fun r hr => by cases hr⟩
    | ok r =>
      rw [h.idle v slot r hv hslot]
      exact ih

theorem IdleAlike.editSlot {rest : List Step} {path : Path} (h : IdleAlike act act')
    (hrest : ∀ (path : Path) (child : Value), child.WellFormed →
      child.edit scope false act rest path = child.edit scope false act' rest path ∧
        ∀ r, child.edit scope false act rest path = .ok r → r = (child, false)) :
    IdleAlike (editSlot scope false act rest path) (editSlot scope false act' rest path) := by
  have hinside {v child : Value} {slot : Slot} (hv : v.WellFormed)
      (henter : v.enter? false slot = .ok (some child)) : v.inSlot? slot = some child := by
    obtain hin | ⟨hcreates, -⟩ := enter?_eq_some henter
    · exact hin
    · cases hcreates
  refine ⟨fun v slot hv => ?_, fun v slot r hv hr => ?_⟩
  · by_cases hgoes : rest = []
    · subst hgoes
      exact h.agree v slot hv
    cases henter : v.enter? false slot with
    | error cause => rw [editSlot_of_enter?_error hgoes henter, editSlot_of_enter?_error hgoes henter]
    | ok entered =>
      cases entered with
      | none => rw [editSlot_of_enter?_none hgoes henter, editSlot_of_enter?_none hgoes henter]
      | some child =>
        rw [editSlot_of_enter?_some hgoes henter, editSlot_of_enter?_some hgoes henter,
          (hrest _ child (hv.of_inSlot? (hinside hv henter))).1]
  · obtain ⟨rfl, hr⟩ | ⟨-, -, rfl⟩ | ⟨child, child', -, henter, hedit, hput⟩ := editSlot_cases hr
    · exact h.idle v slot r hv hr
    · rfl
    · have hin := hinside hv henter
      obtain ⟨rfl, hflag⟩ := Prod.mk.inj ((hrest _ child (hv.of_inSlot? hin)).2 _ hedit)
      rw [put_of_inSlot? hin] at hput
      exact Prod.ext (Except.ok.inj hput).symm hflag

/-- **Acts without effect** on well-formed values are without effect on whole paths. -/
theorem IdleAlike.edit (h : IdleAlike act act') (steps : List Step) (path : Path)
    (hv : v.WellFormed) :
    v.edit scope false act steps path = v.edit scope false act' steps path ∧
      ∀ r, v.edit scope false act steps path = .ok r → r = (v, false) := by
  induction steps generalizing v path with
  | nil => exact ⟨rfl, fun r hr => by cases hr; rfl⟩
  | cons step rest ih =>
    have hslot : IdleAlike (Value.editSlot scope false act rest path)
        (Value.editSlot scope false act' rest path) := h.editSlot fun path child => ih path
    rw [edit_eq, edit_eq]
    cases scope.slots path step v with
    | error cause => exact ⟨rfl, fun r hr => by cases hr⟩
    | ok slots => exact hslot.onSlots hv slots

end Idle

end Value

/-! ## Removals that differ -/

namespace Change

variable {change : Change} {field : String} {existing : Option Value} {effect : Effect}

theorem effect_of_not_takes (hop : change.op = .removeFromArray)
    (h : ∀ v : Value, v.WellFormed → change.operand.takes v = false)
    (hexisting : ∀ v, existing = some v → v.WellFormed) :
    change.effect field existing = shorten .removeFromArray field id existing := by
  rw [effect_of_removal hop]
  cases existing with
  | none => rfl
  | some held =>
    have hwell := hexisting held rfl
    cases held <;> try rfl
    case array items =>
      have hkept : List.filter (!change.operand.takes ·) items = items := by
        refine List.filter_eq_self.mpr fun item hitem => ?_
        simp [h item (Value.wellFormed_array.mp hwell item hitem)]
      rw [shorten, hkept]
      rfl

theorem keep_of_shorten_id {op : UpdateOp} (h : shorten op field id existing = .ok effect) :
    effect = .keep := by
  cases existing with
  | none => cases h; rfl
  | some held =>
    cases held <;> cases h
    exact if_pos rfl

end Change

namespace Update

variable {u w : Update} {item : Value}

/-- Whether two updates, each alone in a query with the same conditions and bindings, make different
things of some document. -/
def Differ (u w : Update) : Prop :=
  ∃ (q : Query) (d : Document), d.WellFormed ∧
    ({ q with updates := [u] } : Query).edit d ≠ ({ q with updates := [w] } : Query).edit d

/-- **Removals that differ** take something. -/
theorem exists_takes_of_differ (hu : u.change.op = .removeFromArray)
    (hw : w.change.op = .removeFromArray) (hfield : u.field = w.field) (h : u.Differ w) :
    ∃ v : Value, v.WellFormed ∧
      (u.change.operand.takes v = true ∨ w.change.operand.takes v = true) := by
  by_contra hnone
  simp only [not_exists, not_and, not_or, Bool.not_eq_true] at hnone
  have hact {u : Update} (hu : u.change.op = .removeFromArray)
      (h : ∀ v : Value, v.WellFormed → u.change.operand.takes v = false) {v : Value} {slot : Slot}
      (hv : v.WellFormed) : u.act v slot =
        Change.shorten .removeFromArray u.field id (v.inSlot? slot) >>= v.perform slot := by
    rw [Update.act, Change.effect_of_not_takes hu h fun x => hv.of_inSlot?]
  have hidle : Value.IdleAlike u.act w.act := by
    refine ⟨fun v slot hv => ?_, fun v slot r hv hr => ?_⟩
    · rw [hact hu (fun v hv => (hnone v hv).1) hv, hact hw (fun v hv => (hnone v hv).2) hv, hfield]
    · rw [hact hu (fun v hv => (hnone v hv).1) hv] at hr
      obtain ⟨effect, heffect, hr⟩ := bind_eq_ok.mp hr
      obtain rfl := Change.keep_of_shorten_id heffect
      cases hr
      rfl
  obtain ⟨q, d, hd, hne⟩ := h
  refine hne ?_
  rw [Query.edit_single (u := u) rfl, Query.edit_single (u := w) rfl, Update.apply_eq,
    Update.apply_eq, Change.creates_of_removal hu, Change.creates_of_removal hw, hfield,
    (hidle.edit (Step.ofPath w.field) [] hd).1]
  rfl

theorem edit_removal {q : Query} {d : Document} (hq : q.updates = [u])
    (hop : u.change.op = .removeFromArray) (hplain : Path.Plain (Dotted.segments u.field))
    (hd : Value.document d = Value.nest (Dotted.segments u.field) (.array [item])) :
    ∃ d', q.edit d = .ok (d', u.change.operand.takes item) := by
  obtain ⟨y, hy⟩ := exists_act_removal hop item
  have hedit : u.apply (q.scope d) (.document d) =
      .ok (Value.nest (Dotted.segments u.field) y, u.change.operand.takes item) := by
    rw [Update.apply_eq, Step.ofPath, hplain.map_ofSegment, hd]
    exact Value.edit_nest hy (Dotted.segments_ne_nil u.field) []
  rw [Query.edit_single hq, hedit]
  exact ⟨_, rfl⟩

/-- **Removals differ** at the end of a plain path if one of them takes what the other one leaves. -/
theorem differ_of_takes_ne (hu : u.change.op = .removeFromArray)
    (hw : w.change.op = .removeFromArray) (hfield : u.field = w.field)
    (hplain : Path.Plain (Dotted.segments u.field)) (hitem : item.WellFormed)
    (hne : u.change.operand.takes item ≠ w.change.operand.takes item) : u.Differ w := by
  obtain ⟨d, hd⟩ : ∃ d : Document,
      Value.document d = Value.nest (Dotted.segments u.field) (.array [item]) := by
    obtain ⟨k, rest, hsegments⟩ := List.exists_cons_of_ne_nil (Dotted.segments_ne_nil u.field)
    exact ⟨_, by rw [hsegments, Value.nest_cons]⟩
  have hwell : d.WellFormed := by
    rw [Document.WellFormed, hd]
    refine Value.WellFormed.nest ?_ _
    simpa using hitem
  refine ⟨.empty, d, hwell, fun heq => hne ?_⟩
  obtain ⟨d', hd'⟩ := edit_removal (q := { Query.empty with updates := [u] }) rfl hu hplain hd
  obtain ⟨e', he'⟩ := edit_removal (q := { Query.empty with updates := [w] }) rfl hw
    (hfield ▸ hplain) (hfield ▸ hd)
  rw [hd', he', Except.ok.injEq, Prod.mk.injEq] at heq
  exact heq.2

end Update

end Dossier
