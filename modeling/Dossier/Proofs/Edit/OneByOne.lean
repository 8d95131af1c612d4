import Mathlib
import Dossier.Proofs.Edit.Path

/-!
# Queries one by one

A query applies its updates under one scope. Applied one after the other, each in a query of its
own, they have a scope each.

* `Scope.slots_congr`: without conditions, a scope names slots by the elements that its bindings
  accept;
* **`Value.edit_congr`**: an edit depends on its scope only through the slots that it names;
* `Update.apply_document`: an update of a document gives a document;
* **`Query.edit_eq_oneByOne`**: a query is its updates one by one if the scopes name the same slots.
-/

namespace Dossier

/-! ## Scopes that name the same slots -/

theorem Scope.slots_congr {s t : Scope} (hs : s.conditions = []) (ht : t.conditions = [])
    (hb : ∀ name, (s.bindingsOf name).isEmpty = (t.bindingsOf name).isEmpty ∧
      Binding.allAccept (s.bindingsOf name) = Binding.allAccept (t.bindingsOf name))
    (path : Path) (step : Step) (v : Value) : s.slots path step v = t.slots path step v := by
  have hposition {r : Scope} (hr : r.conditions = []) :
      r.position path = .error (.unmatchedPosition (Dotted.join path)) := by
    have hon : r.conditionsOn path = [] := by rw [Scope.conditionsOn, hr, List.filter_nil]
    simp only [Scope.position, hon]
    cases r.before.at? path with
    | none => rfl
    | some v => cases v <;> rfl
  cases step with
  | key k => cases v <;> rfl
  | matched =>
    cases v
    case array items => rw [Scope.slots, Scope.slots, hposition hs, hposition ht]
    all_goals rfl
  | bound name =>
    cases v
    case array items => simp only [Scope.slots, (hb name).1, (hb name).2]
    all_goals rfl

namespace Value

/-- An edit depends on its scope only through the slots that its steps name. -/
theorem edit_congr {s t : Scope} {steps : List Step}
    (hslots : ∀ step ∈ steps, ∀ path v, s.slots path step v = t.slots path step v) (creates : Bool)
    (act : Value → Slot → Except UpdateError (Value × Bool)) (path : Path) (v : Value) :
    v.edit s creates act steps path = v.edit t creates act steps path := by
  induction steps generalizing path v with
  | nil => rfl
  | cons step rest ih =>
    rw [List.forall_mem_cons] at hslots
    have hrest : edit s creates act rest = edit t creates act rest := by
      funext path v
      exact ih hslots.2 path v
    rw [edit, edit, hslots.1, hrest]

/-- Whether an act leaves documents documents. -/
def KeepsDocuments (act : Value → Slot → Except UpdateError (Value × Bool)) : Prop :=
  ∀ fields slot w changed, act (document fields) slot = .ok (w, changed) →
    ∃ fields', w = document fields'

theorem put_document {fields : Document} {slot : Slot} {new w : Value}
    (h : (document fields).put slot new = .ok w) : ∃ fields', w = document fields' := by
  cases slot <;> cases h
  exact ⟨_, rfl⟩

theorem keepsDocuments_act (u : Update) : KeepsDocuments u.act := by
  intro fields slot w changed h
  obtain ⟨effect, -, h⟩ := bind_eq_ok.mp h
  cases effect with
  | keep => cases h; exact ⟨fields, rfl⟩
  | clear => cases slot <;> cases h <;> exact ⟨_, rfl⟩
  | fill new =>
    rw [perform] at h
    split at h
    · cases h; exact ⟨fields, rfl⟩
    · obtain ⟨put, hp, h⟩ := map_eq_ok.mp h
      cases h
      exact put_document hp

theorem edit_document {scope : Scope} {creates : Bool}
    {act : Value → Slot → Except UpdateError (Value × Bool)} (hact : KeepsDocuments act)
    {steps : List Step} {path : Path} {fields : Document} {w : Value} {changed : Bool}
    (h : (document fields).edit scope creates act steps path = .ok (w, changed)) :
    ∃ fields', w = document fields' := by
  cases steps with
  | nil => cases h; exact ⟨fields, rfl⟩
  | cons step rest =>
    cases step with
    | key k =>
      obtain ⟨slot, -, ⟨-, hv⟩ | ⟨-, -, rfl⟩ | ⟨child, child', -, -, -, hput⟩⟩ :=
        edit_key_cases h
      · exact hact _ _ _ _ hv
      · exact ⟨fields, rfl⟩
      · exact put_document hput
    | matched => obtain ⟨slots, hs, -⟩ := bind_eq_ok.mp h; cases hs
    | bound name => obtain ⟨slots, hs, -⟩ := bind_eq_ok.mp h; cases hs

end Value

theorem Update.apply_document {u : Update} {scope : Scope} {fields : Document} {w : Value}
    {changed : Bool} (h : u.apply scope (.document fields) = .ok (w, changed)) :
    ∃ fields', w = .document fields' :=
  Value.edit_document (Value.keepsDocuments_act u) h

/-! ## Queries one by one -/

namespace Query

/-- The document after queries applied one after the other. -/
def oneByOne (queries : List Query) (d : Document) : Except UpdateError Document :=
  queries.foldlM (fun d q => (q.edit d).map Prod.fst) d

theorem map_fst_edit (q : Query) (d : Document) :
    (q.edit d).map Prod.fst =
      (q.updates.foldlM (step (q.scope d)) (.document d, false)).map fun state =>
        state.1.fields?.getD d := by
  rw [edit_eq]
  cases q.updates.foldlM (step (q.scope d)) (.document d, false) <;> rfl

/-- **A query is its updates one by one** if each of them meets the same slots in a query of its
own. -/
theorem edit_eq_oneByOne {q : Query} {d : Document} {singles : List Query}
    (h : List.Forall₂ (fun single u => single.updates = [u] ∧ ∀ e path step v,
      (single.scope e).slots path step v = (q.scope d).slots path step v) singles q.updates) :
    (q.edit d).map Prod.fst = oneByOne singles d := by
  have hfold : ∀ {singles : List Query} {us : List Update} {e : Document} {changed : Bool},
      List.Forall₂ (fun single u => single.updates = [u] ∧ ∀ e path step v,
        (single.scope e).slots path step v = (q.scope d).slots path step v) singles us →
      (us.foldlM (step (q.scope d)) (.document e, changed)).map (fun s => s.1.fields?.getD d) =
        oneByOne singles e := by
    intro singles us e changed h
    induction h generalizing e changed with
    | nil => rfl
    | @cons single u singles us hu _ ih =>
      obtain ⟨hupdates, hslots⟩ := hu
      have happly : u.apply (single.scope e) (.document e) = u.apply (q.scope d) (.document e) :=
        Value.edit_congr (fun step _ path v => hslots e path step v) _ _ _ _
      have hsingle := map_fst_edit single e
      rw [hupdates, List.foldlM_cons, step, happly] at hsingle
      rw [oneByOne, List.foldlM_cons, List.foldlM_cons, hsingle, step]
      cases hw : u.apply (q.scope d) (.document e) with
      | error cause => rfl
      | ok applied =>
        obtain ⟨w, acted⟩ := applied
        obtain ⟨next, rfl⟩ := Update.apply_document hw
        exact ih
  rw [map_fst_edit]
  exact hfold h

end Query

end Dossier
