import Dossier.Backend
import Dossier.Identity.Supply
import Dossier.Memory.FirstMatch
import Dossier.Read

/-!
# Collections in memory

A backend that keeps every collection as a list of documents in the order of their insertion.
A collection that was never written to is empty.

* **`Memory`**, `Memory.documents`: the state and the documents of a collection;
* **`Memory.update`**: an update of the first match, or the insertion of a seeded document;
* **`Memory.write`**: a batch, stopped by the first failure; what was written before it stays;
* `Memory.backend`: the operations as a backend.
-/

namespace Dossier

/-- Collections by name, and the supply of fresh identities. -/
structure Memory where
  collections : Entries (List Document) := []
  supply : Supply := ⟨0⟩

namespace Memory

/-- The documents of a collection. -/
def documents (memory : Memory) (name : String) : List Document :=
  (memory.collections.find? name).getD []

/-- Sets the documents of a collection. -/
def setDocuments (memory : Memory) (name : String) (documents : List Document) : Memory :=
  { memory with collections := memory.collections.insert name documents }

@[simp] theorem documents_setDocuments_self (memory : Memory) (name : String)
    (documents : List Document) :
    (memory.setDocuments name documents).documents name = documents := by
  simp [Memory.documents, setDocuments]

theorem documents_setDocuments_of_ne (memory : Memory) {name other : String} (h : name ≠ other)
    (documents : List Document) :
    (memory.setDocuments name documents).documents other = memory.documents other := by
  simp [Memory.documents, setDocuments, Entries.find?_insert_of_ne _ h]

/-- The documents of a collection that a query accepts, in a wanted shape. -/
def find (memory : Memory) (q : Query) (shape : ReadShape) (name : String) : List Document :=
  shape.read q (memory.documents name)

/-- The number of documents of a collection. -/
def count (memory : Memory) (name : String) : Nat := (memory.documents name).length

/-- Appends a document to a collection. -/
def insert (memory : Memory) (d : Document) (name : String) : Memory :=
  memory.setDocuments name (memory.documents name ++ [d])

/-- Changes the documents of a collection, unless it was never written to. -/
def modify (memory : Memory) (change : List Document → Outcome × List Document) (name : String) :
    Outcome × Memory :=
  match memory.collections.find? name with
  | none => (.ofCount 0, memory)
  | some documents =>
    let (outcome, documents) := change documents
    (outcome, memory.setDocuments name documents)

theorem documents_modify_of_ne (memory : Memory) (change : List Document → Outcome × List Document)
    {name other : String} (h : name ≠ other) :
    (memory.modify change name).2.documents other = memory.documents other := by
  rw [modify]
  split
  · rfl
  · exact documents_setDocuments_of_ne memory h _

theorem documents_modify_self (memory : Memory) (change : List Document → Outcome × List Document)
    (name : String) (hempty : change [] = (.ofCount 0, [])) :
    (memory.modify change name).2.documents name = (change (memory.documents name)).2 := by
  cases hfind : memory.collections.find? name with
  | none =>
    have hnone : memory.documents name = [] := by rw [documents, hfind, Option.getD_none]
    rw [hnone, hempty, modify, hfind]
    exact hnone
  | some documents =>
    have hsome : memory.documents name = documents := by
      rw [Memory.documents, hfind, Option.getD_some]
    rw [hsome, modify, hfind]
    exact documents_setDocuments_self memory name _

/-- Replaces the first match. -/
def replace (memory : Memory) (q : Query) (d : Document) (name : String) : Outcome × Memory :=
  memory.modify (replaceFirst q d) name

/-- Deletes the first match. -/
def delete (memory : Memory) (q : Query) (name : String) : Outcome × Memory :=
  memory.modify (deleteFirst q) name

theorem documents_replace_self (memory : Memory) (q : Query) (d : Document) (name : String) :
    (memory.replace q d name).2.documents name = (replaceFirst q d (memory.documents name)).2 :=
  documents_modify_self memory (replaceFirst q d) name rfl

theorem documents_delete_self (memory : Memory) (q : Query) (name : String) :
    (memory.delete q name).2.documents name = (deleteFirst q (memory.documents name)).2 :=
  documents_modify_self memory (deleteFirst q) name rfl

/-- Updates the first match, or inserts a seeded document when nothing matches. Gives the match as it
was before, and whether it changed. A failure changes nothing; the empty collection that a failed
update may open cannot be told from none and is left out. -/
def update (memory : Memory) (q : Query) (name : String) :
    Except UpdateError ((Option Document × Bool) × Memory) := do
  match ← updateFirst? q (memory.documents name) with
  | some updated =>
    return ((some updated.before, updated.changed), memory.setDocuments name updated.documents)
  | none =>
    let seed ← q.seed memory.supply.objectId
    let memory := memory.insert seed name
    return ((none, false), { memory with supply := memory.supply.advance })

/-- Performs one write of a batch; an update that matches nothing inserts nothing, and insertions
are not counted. -/
def writeOne (documents : List Document) : Write Document → Except UpdateError (Nat × List Document)
  | .create d => .ok (0, documents ++ [d])
  | .replace q d =>
    let (outcome, documents) := replaceFirst q d documents
    .ok (outcome.affected, documents)
  | .delete q =>
    let (outcome, documents) := deleteFirst q documents
    .ok (outcome.affected, documents)
  | .update q => do
    match ← updateFirst? q documents with
    | some updated => return (updated.changed.toNat, updated.documents)
    | none => return (0, documents)

/-- Performs writes in order up to the first failure, counting what they affect from `affected`. -/
def writeAll (affected : Nat) (documents : List Document) :
    Batch Document → Except UpdateError Nat × List Document
  | [] => (.ok affected, documents)
  | w :: rest =>
    match writeOne documents w with
    | .ok (count, documents) => writeAll (affected + count) documents rest
    | .error cause => (.error cause, documents)

/-- Performs a batch. -/
def write (memory : Memory) (batch : Batch Document) (name : String) :
    Except UpdateError Outcome × Memory :=
  let (result, documents) := writeAll 0 (memory.documents name) batch
  (result.map Outcome.ofCount, memory.setDocuments name documents)

/-- Removes a collection. -/
def drop (memory : Memory) (name : String) : Memory :=
  { memory with collections := memory.collections.erase name }

/-- The name of an ascending index. -/
def indexName (field : String) : String := field ++ "_1"

/-- A result of the memory as one of the store. -/
def raise {α : Type} (result : Except UpdateError α) : Except StoreError α :=
  result.mapError fun cause => .backend (.update cause)

/-- An update as a step of the state. -/
def updateStep {α : Type} (q : Query) (name : String) (answer : Option Document × Bool → α)
    (memory : Memory) : Except StoreError α × Memory :=
  match memory.update q name with
  | .ok (result, memory) => (.ok (answer result), memory)
  | .error cause => (raise (.error cause), memory)

/-- Collections in memory as a backend. -/
def backend : Backend Memory where
  find q shape name := .ofStep fun memory => (.ok (memory.find q shape name), memory)
  count name := .ofStep fun memory => (.ok (memory.count name), memory)
  insert d name := .ofStep fun memory => (.ok (), memory.insert d name)
  replace q d name := .ofStep fun memory =>
    let (outcome, memory) := memory.replace q d name
    (.ok outcome, memory)
  update q name := .ofStep (updateStep q name fun result => .ofCount result.2.toNat)
  findAndUpdate q name := .ofStep (updateStep q name Prod.fst)
  delete q name := .ofStep fun memory =>
    let (outcome, memory) := memory.delete q name
    (.ok outcome, memory)
  write batch name := .ofStep fun memory =>
    let (result, memory) := memory.write batch name
    (raise result, memory)
  createIndex field _ := .ofStep fun memory => (.ok (indexName field), memory)
  drop name := .ofStep fun memory => (.ok (), memory.drop name)

end Memory

end Dossier
