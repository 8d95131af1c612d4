import Mathlib
import Dossier.Memory
import Dossier.Proofs.Edit.Path

/-!
# Single writes in memory

* `FirstMatch`, `NoMatch`: the first document that a query accepts, between those before and after it;
* **`Memory.update_cases`**: what a successful update does, to the first match or without one;
* `Memory.updateStep_cases`: the two updates of the backend end in the state of the update;
* `Memory.documents_update_of_ne`: an update leaves other collections alone;
* **`ReadShape.read_filter`**: a read finds the same with or without documents that the query does
  not accept;
* **`Memory.Keeps`**: an action leaves documents of a collection as they are and in their order; the
  single writes keep whatever their query does not accept.
-/

namespace Dossier

/-! ## The first match -/

/-- Whether `found` is the first of the documents that a query accepts, between those `before` and
those `after` it. -/
structure FirstMatch (q : Query) (documents before : List Document) (found : Document)
    (after : List Document) : Prop where
  split : documents = before ++ found :: after
  accepts : q.accepts found = true
  first : ∀ d ∈ before, q.accepts d = false

/-- Whether a query accepts none of the documents. -/
def NoMatch (q : Query) (documents : List Document) : Prop := ∀ d ∈ documents, q.accepts d = false

theorem FirstMatch.of_splitFirst {q : Query} {documents before after : List Document}
    {found : Document} (h : splitFirst q.accepts documents = some (before, found, after)) :
    FirstMatch q documents before found after := by
  obtain ⟨hsplit, haccepts, hfirst⟩ := splitFirst_eq_some h
  exact ⟨hsplit, haccepts, hfirst⟩

theorem FirstMatch.splitFirst_eq {q : Query} {documents before after : List Document}
    {found : Document} (h : FirstMatch q documents before found after) :
    splitFirst q.accepts documents = some (before, found, after) := by
  obtain ⟨rfl, haccepts, hfirst⟩ := h
  induction before with
  | nil => rw [List.nil_append, splitFirst, if_pos haccepts]
  | cons d before ih =>
    rw [List.forall_mem_cons] at hfirst
    rw [List.cons_append, splitFirst, hfirst.1, ih hfirst.2]
    rfl

namespace Memory

/-! ## Updates -/

/-- **A successful update** edits the first match, or appends a seeded document if there is none. -/
theorem update_cases {memory memory' : Memory} {q : Query} {name : String}
    {result : Option Document × Bool} (h : memory.update q name = .ok (result, memory')) :
    (∃ before old after new changed,
      splitFirst q.accepts (memory.documents name) = some (before, old, after) ∧
      q.edit old = .ok (new, changed) ∧ result = (some old, changed) ∧
      memory'.documents name = before ++ new :: after) ∨
    (∃ seed, (∀ d ∈ memory.documents name, q.accepts d = false) ∧
      q.seed memory.supply.objectId = .ok seed ∧ result = (none, false) ∧
      memory'.documents name = memory.documents name ++ [seed]) := by
  obtain ⟨updated, hupdated, h⟩ := bind_eq_ok.mp h
  rw [updateFirst?] at hupdated
  cases hs : splitFirst q.accepts (memory.documents name) with
  | none =>
    rw [hs] at hupdated
    cases hupdated
    obtain ⟨seed, hseed, h⟩ := bind_eq_ok.mp h
    cases h
    exact .inr ⟨seed, splitFirst_eq_none.mp hs, hseed, rfl, documents_setDocuments_self _ _ _⟩
  | some split =>
    obtain ⟨before, old, after⟩ := split
    rw [hs] at hupdated
    obtain ⟨⟨new, changed⟩, he, rfl⟩ := map_eq_ok.mp hupdated
    cases h
    exact .inl ⟨before, old, after, new, changed, rfl, he, rfl, documents_setDocuments_self _ _ _⟩

theorem documents_update_of_ne {memory memory' : Memory} {q : Query} {name : String}
    {result : Option Document × Bool} (h : memory.update q name = .ok (result, memory')) {other : String}
    (hne : other ≠ name) : memory'.documents other = memory.documents other := by
  obtain ⟨updated, -, h⟩ := bind_eq_ok.mp h
  cases updated with
  | some updated =>
    cases h
    exact documents_setDocuments_of_ne memory hne.symm _
  | none =>
    obtain ⟨seed, -, h⟩ := bind_eq_ok.mp h
    cases h
    exact documents_setDocuments_of_ne memory hne.symm _

theorem updateStep_cases {α : Type} {q : Query} {name : String}
    (answer : Option Document × Bool → α) (memory : Memory) :
    (∃ result memory', memory.update q name = .ok (result, memory') ∧
      updateStep q name answer memory = (.ok (answer result), memory')) ∨
    (∃ cause, memory.update q name = .error cause ∧
      updateStep q name answer memory = (raise (.error cause), memory)) := by
  cases h : memory.update q name with
  | error cause => exact .inr ⟨cause, rfl, by rw [updateStep, h]⟩
  | ok updated => exact .inl ⟨updated.1, updated.2, rfl, by rw [updateStep, h]⟩

theorem updateStep_of_edit_error {α : Type} {q : Query} {name : String}
    {before after : List Document} {found : Document} {cause : UpdateError}
    (answer : Option Document × Bool → α) {memory : Memory}
    (hfirst : FirstMatch q (memory.documents name) before found after)
    (hedit : q.edit found = .error cause) :
    updateStep q name answer memory = (raise (.error cause), memory) := by
  have hupdate : memory.update q name = .error cause := by
    rw [update, updateFirst?, hfirst.splitFirst_eq]
    simp only [hedit]
    rfl
  rw [updateStep, hupdate]

end Memory

/-! ## Documents that are not accepted -/

theorem ReadShape.read_filter (shape : ReadShape) (q : Query) {documents : List Document}
    {keep : Document → Bool} (h : ∀ d ∈ documents, q.accepts d = true → keep d = true) :
    shape.read q (documents.filter keep) = shape.read q documents := by
  have hfilter : (documents.filter keep).filter q.accepts = documents.filter q.accepts := by
    rw [List.filter_filter]
    refine List.filter_congr fun d hd => ?_
    by_cases ha : q.accepts d = true
    · simp [ha, h d hd ha]
    · simp [ha]
  rw [read, hfilter, read]

namespace Memory

variable {q : Query} {kept documents : List Document}

theorem sublist_of_splitFirst {before after : List Document} {found : Document}
    (h : splitFirst q.accepts documents = some (before, found, after))
    (hk : kept.Sublist documents) (hq : ∀ d ∈ kept, q.accepts d = false) :
    kept.Sublist (before ++ after) := by
  obtain ⟨rfl, hfound, -⟩ := splitFirst_eq_some h
  obtain ⟨front, back, rfl, hfront, hback⟩ := List.sublist_append_iff.mp hk
  rcases List.sublist_cons_iff.mp hback with hback | ⟨rest, rfl, -⟩
  · exact hfront.append hback
  · have := hq found (by simp)
    rw [hfound] at this
    cases this

theorem sublist_insert_between {before after : List Document} (new : Document)
    (h : kept.Sublist (before ++ after)) : kept.Sublist (before ++ new :: after) :=
  h.trans ((List.Sublist.refl before).append (List.sublist_cons_self new after))

/-- An action that leaves `kept` among the documents of a collection, in their order. -/
def Keeps {α : Type} (kept : List Document) (name : String) (action : Action Memory α) : Prop :=
  ∀ memory : Memory, kept.Sublist (memory.documents name) →
    kept.Sublist ((action.perform memory).2.documents name)

section Writes

variable (hq : ∀ d ∈ kept, q.accepts d = false) (name : String)

include hq

theorem keeps_delete : Keeps kept name (backend.delete q name) := by
  intro memory hk
  simp only [backend, Action.perform_ofStep, documents_delete_self, deleteFirst]
  split
  · exact hk
  · rename_i hs
    exact sublist_of_splitFirst hs hk hq

theorem keeps_replace (new : Document) : Keeps kept name (backend.replace q new name) := by
  intro memory hk
  simp only [backend, Action.perform_ofStep, documents_replace_self, replaceFirst]
  split
  · exact hk
  · rename_i hs
    exact sublist_insert_between _ (sublist_of_splitFirst hs hk hq)

theorem keeps_updateStep {α : Type} (answer : Option Document × Bool → α) :
    Keeps kept name (.ofStep (updateStep q name answer)) := by
  intro memory hk
  rw [Action.perform_ofStep]
  obtain ⟨result, memory', hu, heq⟩ | ⟨cause, -, heq⟩ := updateStep_cases answer memory
  · rw [heq]
    obtain ⟨before, old, after, new, changed, hs, -, -, hdocs⟩ | ⟨seed, -, -, -, hdocs⟩ :=
      update_cases hu
    · rw [hdocs]
      exact sublist_insert_between _ (sublist_of_splitFirst hs hk hq)
    · rw [hdocs]
      exact hk.trans (List.sublist_append_left _ _)
  · rw [heq]
    exact hk

theorem keeps_update : Keeps kept name (backend.update q name) := keeps_updateStep hq name _

theorem keeps_findAndUpdate : Keeps kept name (backend.findAndUpdate q name) :=
  keeps_updateStep hq name _

end Writes

end Memory

end Dossier
