import Mathlib
import Dossier.Edit
import Dossier.Proofs.Value.Within

/-!
# Edits along keys

An edit follows its path slot by slot. On a path of plain keys there is one slot at every step.

* **`Value.edit_key_cases`**: what an edit does at a key;
* **`Value.edit_of_within`**: along documents, an edit is one of the value at the end of the path,
  put back; `Value.edit_put_of_clear`: setting a value on a clear path always succeeds;
* **`Value.within?_edit_of_apart`**, `Update.within?_apply_of_avoids`,
  `Query.within?_edit_of_avoids`: an edit does not show on a path apart from its own.
-/

namespace Dossier

/-! ## Computations that can fail -/

theorem bind_eq_ok {ε α β : Type} {x : Except ε α} {f : α → Except ε β} {b : β} :
    x >>= f = .ok b ↔ ∃ a, x = .ok a ∧ f a = .ok b := by
  cases x with
  | error cause => exact ⟨nofun, nofun⟩
  | ok a => simp [bind, Except.bind]

theorem map_eq_ok {ε α β : Type} {x : Except ε α} {f : α → β} {b : β} :
    x.map f = .ok b ↔ ∃ a, x = .ok a ∧ f a = b := by
  cases x with
  | error cause => exact ⟨nofun, nofun⟩
  | ok a => simp [Except.map]

theorem map_eq_error {ε α β : Type} {x : Except ε α} {f : α → β} {cause : ε} :
    x.map f = .error cause ↔ x = .error cause := by
  cases x <;> simp [Except.map]

theorem foldlM_keeps {ε σ α : Type} {f : σ → α → Except ε σ} {P : σ → Prop} {xs : List α}
    (hf : ∀ s x s', x ∈ xs → P s → f s x = .ok s' → P s') {s s' : σ} (hs : P s)
    (h : xs.foldlM f s = .ok s') : P s' := by
  induction xs generalizing s with
  | nil => cases h; exact hs
  | cons x xs ih =>
    rw [List.foldlM_cons] at h
    obtain ⟨t, hx, h⟩ := bind_eq_ok.mp h
    exact ih (fun s y s' hy => hf s y s' (List.mem_cons_of_mem _ hy))
      (hf s x t List.mem_cons_self hs hx) h

/-! ## Plain steps -/

namespace Path

/-- Whether every segment of an update path is a key. -/
def Plain (p : Path) : Prop := ∀ segment ∈ p, Step.ofSegment segment = .key segment

instance (p : Path) : Decidable (Plain p) := inferInstanceAs (Decidable (∀ _ ∈ p, _))

theorem Plain.map_ofSegment {p : Path} (h : Plain p) : p.map Step.ofSegment = p.map .key :=
  List.map_congr_left h

end Path

namespace Scope

theorem slots_key_cases {scope : Scope} {path : Path} {k : String} {v : Value} {slots : List Slot}
    (h : scope.slots path (.key k) v = .ok slots) :
    ∃ slot, slots = [slot] ∧ (slot = .key k ∨ ∃ items i, v = .array items ∧ slot = .index i) := by
  cases v
  case array items =>
    rw [Scope.slots] at h
    split at h
    · cases h; exact ⟨_, rfl, .inr ⟨items, _, rfl, rfl⟩⟩
    · cases h
  all_goals cases h; exact ⟨_, rfl, .inl rfl⟩

@[simp] theorem slots_key_document (scope : Scope) (path : Path) (k : String) (fields : Document) :
    scope.slots path (.key k) (.document fields) = .ok [.key k] := rfl

end Scope

namespace Value

variable {scope : Scope} {creates : Bool} {act : Value → Slot → Except UpdateError (Value × Bool)}
  {step : Step} {rest : List Step} {path : Path} {v w : Value} {slot : Slot} {changed : Bool}

/-! ## One step -/

theorem edit_of_no_slots (h : scope.slots path step v = .ok []) :
    v.edit scope creates act (step :: rest) path = .ok (v, false) := by
  rw [edit, h]
  rfl

theorem edit_last (h : scope.slots path step v = .ok [slot]) :
    v.edit scope creates act [step] path = act v slot := by
  rw [edit, h]
  simp only [bind, Except.bind, List.foldlM, List.isEmpty_nil, if_true]
  cases act v slot <;> simp [Except.map, pure, Except.pure]

theorem edit_cons (h : scope.slots path step v = .ok [slot]) (hr : rest ≠ []) :
    v.edit scope creates act (step :: rest) path =
      (do
        match ← v.enter? creates slot with
        | none => return (v, false)
        | some child =>
          let (child, acted) ← child.edit scope creates act rest (path ++ [slot.segment])
          return (← v.put slot child, acted)) := by
  obtain ⟨next, rest, rfl⟩ := List.exists_cons_of_ne_nil hr
  rw [edit, h]
  simp only [bind, Except.bind, List.foldlM, List.isEmpty_cons, pure, Except.pure,
    Bool.false_eq_true, if_false, Bool.false_or]
  cases v.enter? creates slot with
  | error cause => rfl
  | ok entered =>
    cases entered with
    | none => rfl
    | some child =>
      simp only
      cases child.edit scope creates act (next :: rest) (path ++ [slot.segment]) with
      | error cause => rfl
      | ok edited =>
        simp only
        cases v.put slot edited.1 <;> rfl

/-- What an edit makes of a slot that it goes on in: it finds nothing there, or edits the value inside and
puts it back. -/
theorem edit_cons_cases (hslots : scope.slots path step v = .ok [slot]) (hrest : rest ≠ [])
    (h : v.edit scope creates act (step :: rest) path = .ok (w, changed)) :
    (v.enter? creates slot = .ok none ∧ w = v) ∨
      ∃ child child', v.enter? creates slot = .ok (some child) ∧
        child.edit scope creates act rest (path ++ [slot.segment]) = .ok (child', changed) ∧
        v.put slot child' = .ok w := by
  rw [edit_cons hslots hrest] at h
  obtain ⟨entered, henter, h⟩ := bind_eq_ok.mp h
  cases entered with
  | none =>
    cases h
    exact .inl ⟨henter, rfl⟩
  | some child =>
    obtain ⟨⟨child', acted⟩, hedit, h⟩ := bind_eq_ok.mp h
    obtain ⟨put, hput, h⟩ := bind_eq_ok.mp h
    cases h
    exact .inr ⟨child, child', henter, hedit, hput⟩

/-- **What an edit does at a key**: it acts on the slot at the end of the path, finds nothing there
to go on in, or edits the value inside and puts it back. -/
theorem edit_key_cases {k : String}
    (h : v.edit scope creates act (.key k :: rest) path = .ok (w, changed)) :
    ∃ slot, (slot = .key k ∨ ∃ items i, v = array items ∧ slot = .index i) ∧
      ((rest = [] ∧ act v slot = .ok (w, changed)) ∨
        (rest ≠ [] ∧ v.enter? creates slot = .ok none ∧ w = v) ∨
        ∃ child child', rest ≠ [] ∧ v.enter? creates slot = .ok (some child) ∧
          child.edit scope creates act rest (path ++ [slot.segment]) = .ok (child', changed) ∧
          v.put slot child' = .ok w) := by
  cases hs : scope.slots path (.key k) v with
  | error cause => rw [edit, hs] at h; cases h
  | ok slots =>
    obtain ⟨slot, rfl, hslot⟩ := Scope.slots_key_cases hs
    refine ⟨slot, hslot, ?_⟩
    by_cases hr : rest = []
    · subst hr
      rw [edit_last hs] at h
      exact .inl ⟨rfl, h⟩
    obtain hnone | ⟨child, child', hinside⟩ := edit_cons_cases hs hr h
    · exact .inr (.inl ⟨hr, hnone⟩)
    · exact .inr (.inr ⟨child, child', hr, hinside⟩)

theorem enter?_key_eq_some {k : String} {child : Value}
    (h : v.enter? creates (.key k) = .ok (some child)) :
    ∃ fields, v = document fields ∧ child = (Entries.find? fields k).getD (document []) := by
  cases v
  case document fields =>
    refine ⟨fields, rfl, ?_⟩
    rw [enter?] at h
    cases hk : Entries.find? fields k with
    | some found => rw [hk] at h; cases h; rfl
    | none =>
      rw [hk] at h
      cases creates <;> cases h
      rfl
  all_goals cases h

/-! ## Along documents -/

/-- **Along documents**, an edit is one of the value at the end, put back. -/
theorem edit_of_within {ks : Path} (h : v.within? ks = some w) (hr : rest ≠ []) :
    v.edit scope creates act (ks.map .key ++ rest) path =
      (w.edit scope creates act rest (path ++ ks)).map fun edited =>
        (v.putWithin ks edited.1, edited.2) := by
  induction ks generalizing v path with
  | nil =>
    rw [within?_nil, Option.some.injEq] at h
    subst h
    simp only [List.map_nil, List.nil_append, List.append_nil, putWithin_nil]
    cases v.edit scope creates act rest path <;> rfl
  | cons k ks ih =>
    obtain ⟨fields, child, rfl, hchild, hw⟩ := exists_fields_of_within? h
    have hne : ks.map Step.key ++ rest ≠ [] := by simp [hr]
    rw [List.map_cons, List.cons_append, edit_cons (Scope.slots_key_document _ _ _ _) hne]
    simp only [enter?, hchild, bind, Except.bind, Slot.segment, ih hw, List.append_assoc,
      List.singleton_append, put, putWithin, Option.getD_some]
    cases w.edit scope creates act rest (path ++ k :: ks) <;> rfl

theorem edit_put_of_clear (new : Value) {ks : Path} (h : v.Clear ks) (hks : ks ≠ []) :
    v.edit scope true (fun v slot => (v.put slot new).map (·, true)) (ks.map .key) path =
      .ok (v.putWithin ks new, true) := by
  induction ks generalizing v path with
  | nil => exact absurd rfl hks
  | cons k ks ih =>
    obtain ⟨fields, rfl, hchild⟩ := h.exists_fields
    cases ks with
    | nil =>
      rw [List.map_cons, List.map_nil, edit_last (Scope.slots_key_document _ _ _ _)]
      simp [put, Except.map, putWithin]
    | cons next ks =>
      have henter : (document fields).enter? true (.key k) =
          .ok (some ((Entries.find? fields k).getD (document []))) := by
        rw [enter?]
        cases Entries.find? fields k <;> rfl
      rw [List.map_cons, edit_cons (Scope.slots_key_document _ _ _ _) (by simp), henter]
      simp only [bind, Except.bind, ih (Clear.getD hchild) (by simp)]
      rfl

/-! ## Paths apart -/

/-- An act that does not show at paths which begin with another key than the one it acts on. -/
def Local (act : Value → Slot → Except UpdateError (Value × Bool)) : Prop :=
  ∀ v slot w changed, act v slot = .ok (w, changed) → ∀ k rest, slot ≠ .key k →
    w.within? (k :: rest) = v.within? (k :: rest)

theorem within?_put {new : Value} (h : v.put slot new = .ok w) {k : String} (hk : slot ≠ .key k)
    (rest : Path) : w.within? (k :: rest) = v.within? (k :: rest) := by
  cases v <;> cases slot <;> cases h
  case document.key fields l =>
    rw [within?, within?, Entries.find?_insert_of_ne _ fun e => hk (congrArg Slot.key e)]
  case array.index items i => rfl

theorem within?_clear {k : String} (hk : slot ≠ .key k) (rest : Path) :
    (v.clear slot).1.within? (k :: rest) = v.within? (k :: rest) := by
  cases v <;> cases slot <;> try rfl
  case document.key fields l =>
    rw [clear, within?, within?, Entries.find?_erase_of_ne _ fun e => hk (congrArg Slot.key e)]
  case array.index items i =>
    rw [clear]
    split <;> rfl

theorem within?_perform {effect : Effect} (h : v.perform slot effect = .ok (w, changed))
    {k : String} (hk : slot ≠ .key k) (rest : Path) :
    w.within? (k :: rest) = v.within? (k :: rest) := by
  cases effect with
  | keep => cases h; rfl
  | clear =>
    have hw : v.clear slot = (w, changed) := Except.ok.inj h
    have := within?_clear (v := v) hk rest
    rwa [hw] at this
  | fill new =>
    rw [perform] at h
    split at h
    · cases h; rfl
    · obtain ⟨put, hp, h⟩ := map_eq_ok.mp h
      cases h
      exact within?_put hp hk rest

/-- **An edit does not show on a path apart from its own.** -/
theorem within?_edit_of_apart (hact : Local act) {ks q : Path} (hq : Path.Apart ks q)
    (h : v.edit scope creates act (ks.map .key ++ rest) path = .ok (w, changed)) :
    w.within? q = v.within? q := by
  induction ks generalizing v w path q with
  | nil => exact absurd hq Path.not_apart_nil_left
  | cons k ks ih =>
    cases q with
    | nil => exact absurd hq Path.not_apart_nil_right
    | cons l q =>
      rw [Path.apart_cons_cons] at hq
      obtain ⟨slot, hslot, hcases⟩ := edit_key_cases h
      -- where the paths part, the slot is not the one that `l` names
      by_cases hl : slot = .key l
      · have hkl : k = l := by
          obtain rfl | ⟨items, i, -, rfl⟩ := hslot
          · cases hl; rfl
          · cases hl
        subst hl hkl
        have hne : q ≠ [] := by rintro rfl; exact Path.not_apart_nil_right (hq rfl)
        have hks : ks.map Step.key ++ rest ≠ [] := by
          cases ks with
          | nil => exact absurd (hq rfl) Path.not_apart_nil_left
          | cons _ _ => simp
        obtain ⟨hr, -⟩ | ⟨-, -, rfl⟩ | ⟨child, child', -, henter, hedit, hput⟩ := hcases
        · exact absurd hr hks
        · rfl
        · obtain ⟨fields, rfl, rfl⟩ := enter?_key_eq_some henter
          cases hput
          rw [within?, Entries.find?_insert_self, Option.bind_some, ih (hq rfl) hedit,
            within?_getD_of_ne_nil _ _ hne]
      · obtain ⟨-, hv⟩ | ⟨-, -, rfl⟩ | ⟨child, child', -, -, -, hput⟩ := hcases
        · exact hact _ _ _ _ hv _ _ hl
        · rfl
        · exact within?_put hput hl q

end Value

/-! ## Updates -/

/-- What an update does to a slot. -/
def Update.act (u : Update) (v : Value) (slot : Slot) : Except UpdateError (Value × Bool) :=
  u.change.effect u.field (v.inSlot? slot) >>= v.perform slot

theorem Update.apply_eq (u : Update) (scope : Scope) (v : Value) :
    u.apply scope v = v.edit scope u.change.creates u.act (Step.ofPath u.field) [] := rfl

theorem Update.local_act (u : Update) : Value.Local u.act := by
  intro v slot w changed h k rest hk
  obtain ⟨effect, -, h⟩ := bind_eq_ok.mp h
  exact Value.within?_perform h hk rest

/-- Whether the path of an update begins with keys that lead apart from `p`. -/
def Update.Avoids (u : Update) (p : Path) : Prop :=
  ∃ ks rest, Step.ofPath u.field = ks.map .key ++ rest ∧ Path.Apart ks p

theorem Update.avoids_of_plain {u : Update} {p : Path}
    (hplain : Path.Plain (Dotted.segments u.field))
    (hapart : Path.Apart (Dotted.segments u.field) p) : u.Avoids p :=
  ⟨Dotted.segments u.field, [], by rw [Step.ofPath, hplain.map_ofSegment, List.append_nil], hapart⟩

theorem Update.within?_apply_of_avoids {u : Update} {scope : Scope} {v w : Value} {changed : Bool}
    {p : Path} (hu : u.Avoids p) (h : u.apply scope v = .ok (w, changed)) :
    w.within? p = v.within? p := by
  obtain ⟨ks, rest, hpath, hapart⟩ := hu
  rw [Update.apply_eq, hpath] at h
  exact Value.within?_edit_of_apart u.local_act hapart h

namespace Query

/-- One update of a query after others. -/
def step (scope : Scope) (state : Value × Bool) (u : Update) :
    Except UpdateError (Value × Bool) := do
  let (v, acted) ← u.apply scope state.1
  return (v, state.2 || acted)

theorem edit_eq (q : Query) (d : Document) :
    q.edit d = (q.updates.foldlM (step (q.scope d)) (.document d, false)).map fun state =>
      (state.1.fields?.getD d, state.2) := by
  have hedit : q.edit d = q.updates.foldlM (step (q.scope d)) (.document d, false) >>=
      fun state => .ok (state.1.fields?.getD d, state.2) := rfl
  rw [hedit]
  cases q.updates.foldlM (step (q.scope d)) (.document d, false) <;> rfl

theorem edit_single {q : Query} {u : Update} (hq : q.updates = [u]) (d : Document) :
    q.edit d = (u.apply (q.scope d) (.document d)).map fun state =>
      (state.1.fields?.getD d, state.2) := by
  rw [edit_eq, hq, List.foldlM_cons, step]
  cases u.apply (q.scope d) (.document d) <;>
    simp [bind, Except.bind, pure, Except.pure, Except.map]

/-- **The updates of a query do not show on a path that they avoid.** -/
theorem within?_edit_of_avoids {q : Query} {d d' : Document} {changed : Bool} {p : Path}
    (hu : ∀ u ∈ q.updates, u.Avoids p) (h : q.edit d = .ok (d', changed)) :
    (Value.document d').within? p = (Value.document d).within? p := by
  rw [edit_eq] at h
  obtain ⟨⟨v, acted⟩, hf, h⟩ := map_eq_ok.mp h
  have hinv : v.within? p = (Value.document d).within? p := by
    refine foldlM_keeps (P := fun s => s.1.within? p = (Value.document d).within? p) ?_ rfl hf
    intro s u s' hm hs hstep
    obtain ⟨applied, happly, hstep⟩ := bind_eq_ok.mp hstep
    cases hstep
    rw [Update.within?_apply_of_avoids (hu u hm) happly, hs]
  cases h
  cases v <;> first | exact hinv | rfl

end Query

end Dossier
