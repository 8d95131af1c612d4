import Mathlib
import Dossier.Proofs.Memory.Upsert

/-!
# Single writes touch one document

* `SingleWrite`, `SingleWrite.perform`: the five writes of one document;
* **`SingleWrite.Does`**: what each of them does to the documents of its collection when it succeeds;
* **`SingleWrite.touches_one_document`**: a write does what it should in its collection and nothing in the
  others; a write that fails does nothing at all.
-/

namespace Dossier

/-! ## Writes -/

/-- A write of one document. -/
inductive SingleWrite where
  | insert (d : Document)
  | replace (q : Query) (d : Document)
  | update (q : Query)
  | findAndUpdate (q : Query)
  | delete (q : Query)

namespace SingleWrite

/-- Whether a write succeeds, and the state after it. -/
def perform (name : String) (memory : Memory) : SingleWrite → Except StoreError Unit × Memory
  | insert d => (Memory.backend.insert d name).perform memory
  | replace q d => Upsert.outcome ((Memory.backend.replace q d name).perform memory)
  | update q => Upsert.outcome ((Memory.backend.update q name).perform memory)
  | findAndUpdate q => Upsert.outcome ((Memory.backend.findAndUpdate q name).perform memory)
  | delete q => Upsert.outcome ((Memory.backend.delete q name).perform memory)

/-- Whether `new` is a document that replaces another: the given one, with the identity of the old one
if that has any. -/
structure Replaces (given old new : Document) : Prop where
  id : ∀ id, old.find? "_id" = some id → new.find? "_id" = some id
  noId : old.find? "_id" = none → new = given
  others : ∀ key, key ≠ "_id" → new.find? key = given.find? key

/-- What an update does: it edits the first match, or appends a seeded document. -/
inductive Updates (q : Query) : List Document → List Document → Prop where
  | edited {documents before after : List Document} {old new : Document} {changed : Bool} :
      FirstMatch q documents before old after → q.edit old = .ok (new, changed) →
      Updates q documents (before ++ new :: after)
  | appended {documents : List Document} {fresh : ObjectId} {seed : Document} :
      NoMatch q documents → q.seed fresh = .ok seed → Updates q documents (documents ++ [seed])

/-- **What a successful write does** to the documents of its collection. -/
inductive Does : SingleWrite → List Document → List Document → Prop where
  | inserted (documents : List Document) (d : Document) :
      Does (.insert d) documents (documents ++ [d])
  | replaced {q : Query} {given : Document} {documents before after : List Document}
      {old new : Document} :
      FirstMatch q documents before old after → Replaces given old new →
      Does (.replace q given) documents (before ++ new :: after)
  | notReplaced {q : Query} {documents : List Document} (given : Document) :
      NoMatch q documents → Does (.replace q given) documents documents
  | updated {q : Query} {documents documents' : List Document} :
      Updates q documents documents' → Does (.update q) documents documents'
  | foundAndUpdated {q : Query} {documents documents' : List Document} :
      Updates q documents documents' → Does (.findAndUpdate q) documents documents'
  | deleted {q : Query} {documents before after : List Document} {old : Document} :
      FirstMatch q documents before old after → Does (.delete q) documents (before ++ after)
  | notDeleted {q : Query} {documents : List Document} :
      NoMatch q documents → Does (.delete q) documents documents

end SingleWrite

namespace Memory

variable {memory memory' : Memory} {q : Query} {name : String} {result : Option Document × Bool}

theorem replaces_successor (old given : Document) :
    SingleWrite.Replaces given old (successor old given) := by
  rw [successor]
  cases hid : old.find? "_id" with
  | none => exact ⟨fun id hold => (by rw [hid] at hold; cases hold), fun _ => rfl, fun _ _ => rfl⟩
  | some id =>
    refine ⟨fun id' hold => ?_, fun hold => ?_, fun key hkey => ?_⟩
    · rw [hid] at hold
      cases hold
      exact Entries.find?_insert_self given "_id" id
    · rw [hid] at hold
      cases hold
    · exact Entries.find?_insert_of_ne given hkey.symm id

theorem does_replaceFirst (q : Query) (given : Document) (documents : List Document) :
    SingleWrite.Does (.replace q given) documents (replaceFirst q given documents).2 := by
  rw [replaceFirst]
  cases hs : splitFirst q.accepts documents with
  | none => exact .notReplaced given (splitFirst_eq_none.mp hs)
  | some split => exact .replaced (.of_splitFirst hs) (replaces_successor split.2.1 given)

theorem does_deleteFirst (q : Query) (documents : List Document) :
    SingleWrite.Does (.delete q) documents (deleteFirst q documents).2 := by
  rw [deleteFirst]
  cases hs : splitFirst q.accepts documents with
  | none => exact .notDeleted (splitFirst_eq_none.mp hs)
  | some split => exact .deleted (.of_splitFirst hs)

theorem updates_update (h : memory.update q name = .ok (result, memory')) :
    SingleWrite.Updates q (memory.documents name) (memory'.documents name) := by
  obtain ⟨before, old, after, new, changed, hs, hedit, -, hdocs⟩ | ⟨seed, hnone, hseed, -, hdocs⟩ :=
    update_cases h
  · rw [hdocs]
    exact .edited (.of_splitFirst hs) hedit
  · rw [hdocs]
    exact .appended hnone hseed

end Memory

namespace SingleWrite

/-- Whether an outcome is that of a write which keeps to one document of one collection. -/
structure Confined (write : SingleWrite) (name : String) (memory : Memory)
    (done : Except StoreError Unit × Memory) : Prop where
  others : ∀ other, other ≠ name → done.2.documents other = memory.documents other
  does : done.1 = .ok () → write.Does (memory.documents name) (done.2.documents name)
  failed : ∀ cause, done.1 = .error cause → done.2 = memory

theorem confined_updateStep {α : Type} {write : SingleWrite} {q : Query} (name : String)
    (answer : Option Document × Bool → α) (memory : Memory)
    (hwrite : ∀ documents documents', Updates q documents documents' →
      write.Does documents documents') :
    write.Confined name memory (Upsert.outcome (Memory.updateStep q name answer memory)) := by
  obtain ⟨result, memory', hu, heq⟩ | ⟨cause, heq⟩ :=
    Upsert.outcome_updateStep_cases q name answer memory
  · rw [heq]
    exact ⟨fun other hne => Memory.documents_update_of_ne hu hne,
      fun _ => hwrite _ _ (Memory.updates_update hu), nofun⟩
  · rw [heq]
    exact ⟨fun _ _ => rfl, nofun, fun _ _ => rfl⟩

theorem confined_insert (d : Document) (name : String) (memory : Memory) :
    (insert d).Confined name memory (.ok (), memory.insert d name) where
  others other hne := Memory.documents_setDocuments_of_ne memory hne.symm _
  does _ := by
    rw [Memory.insert, Memory.documents_setDocuments_self]
    exact .inserted _ d
  failed := nofun

theorem confined_modify {write : SingleWrite} {name : String} {memory : Memory}
    {change : List Document → Outcome × List Document}
    (h : write.Does (memory.documents name) (change (memory.documents name)).2)
    (hempty : change [] = (.ofCount 0, [])) :
    write.Confined name memory (.ok (), (memory.modify change name).2) where
  others other hne := Memory.documents_modify_of_ne memory change hne.symm
  does _ := by rwa [Memory.documents_modify_self memory change name hempty]
  failed := nofun

theorem confined_perform (write : SingleWrite) (name : String) (memory : Memory) :
    write.Confined name memory (write.perform name memory) := by
  cases write with
  | insert d => exact confined_insert d name memory
  | replace q d => exact confined_modify (Memory.does_replaceFirst q d _) rfl
  | update q => exact confined_updateStep name _ memory fun _ _ => .updated
  | findAndUpdate q => exact confined_updateStep name _ memory fun _ _ => .foundAndUpdated
  | delete q => exact confined_modify (Memory.does_deleteFirst q _) rfl

/-- **Single writes touch one document.** A write leaves every other collection as it is. If it
succeeds, it does to the documents of its collection what it should, and leaves the others of them
as they are and in their places. If it fails, `find` and `count` give what they gave before, in every
collection; only updates can fail. -/
theorem touches_one_document (write : SingleWrite) (name : String) (memory : Memory) :
    (∀ other, other ≠ name →
      (write.perform name memory).2.documents other = memory.documents other) ∧
    ((write.perform name memory).1 = .ok () →
      write.Does (memory.documents name) ((write.perform name memory).2.documents name)) ∧
    ∀ cause, (write.perform name memory).1 = .error cause →
      (∃ q, write = .update q ∨ write = .findAndUpdate q) ∧
      ∀ other, (write.perform name memory).2.documents other = memory.documents other ∧
        (write.perform name memory).2.count other = memory.count other ∧
        ∀ q shape, (write.perform name memory).2.find q shape other = memory.find q shape other := by
  have h := confined_perform write name memory
  refine ⟨h.others, h.does, fun cause hcause => ⟨?_, fun other => ?_⟩⟩
  · cases write with
    | update q => exact ⟨q, .inl rfl⟩
    | findAndUpdate q => exact ⟨q, .inr rfl⟩
    | _ => cases hcause
  · rw [h.failed cause hcause]
    exact ⟨rfl, rfl, fun _ _ => rfl⟩

/-- An increment of text fails, and the update before it is not kept either. -/
example :
    let write : SingleWrite := .update
      { updates := [⟨"seen", .assign (.int32 2)⟩, ⟨"name", .increment (.int32 1)⟩] }
    let documents : List Document := [[("seen", .int32 1), ("name", .string "a")]]
    let done := write.perform "users" { collections := [("users", documents)] }
    done.1 ≠ .ok () ∧ done.2.documents "users" = documents := ⟨nofun, rfl⟩

end SingleWrite

end Dossier
