import Dossier.Backend
import Dossier.Codebook.Stored
import Dossier.Read.Plan
import Dossier.Text.LowerCase

/-!
# Collections of typed documents

A collection hands queries, plans and batches to its backend and converts documents on the way in
and out. Its name is used in lower case.

* **`Collection`**, `Collection.named`, `Collection.ofType`;
* **`get`**, `getAll`, `findAll`: reading;
* `add`, `replace`, **`update`**, `updateAndReturn`, `delete`, **`writeBatch`**: writing;
* `blocking`: the same operations on the current thread; `getAllBlocking` reports what `getAll`
  keeps to itself.
-/

namespace Dossier

/-- Documents of the type `δ` on a backend with the state `σ`. -/
structure Collection (σ δ : Type) where
  name : String
  book : Codebook
  backend : Backend σ

/-- Data that always live in one collection. -/
class Named (δ : Type) where
  collection : String

namespace Collection

variable {σ δ : Type}

/-- The collection of a given name. -/
def named (book : Codebook) (backend : Backend σ) (name : String) : Collection σ δ :=
  ⟨LowerCase.lower name, book, backend⟩

/-- The collection of a type. -/
def ofType [Named δ] (book : Codebook) (backend : Backend σ) : Collection σ δ :=
  named book backend (Named.collection δ)

variable (c : Collection σ δ)

/-- The stored form of a document. -/
def store [ToValue δ] (a : δ) : Action σ Document := ExceptT.mk (pure (c.book.toStored a))

/-- The document that a stored one holds. -/
def restore [FromValue δ] (d : Document) : Action σ δ := ExceptT.mk (pure (c.book.fromStored d))

/-! ## Reading -/

/-- The number of documents. -/
def count : Action σ Nat := c.backend.count c.name

/-- The shape of a read that tells one match from more. -/
def twoAtMost : ReadShape := { limit := some 2 }

/-- The only match, if there is one; more than one match is a failure. -/
def get [FromValue δ] (q : Query) : Action σ (Option δ) := do
  match ← c.backend.find q twoAtMost c.name with
  | [] => return none
  | [d] => return some (← c.restore d)
  | _ => throw (.multipleResults c.name)

/-- Every match in a wanted shape. -/
def findAll [FromValue δ] (q : Query) (shape : ReadShape) : Action σ (List δ) := do
  (← c.backend.find q shape c.name).mapM c.restore

/-- Every match as planned; nothing when the read fails. -/
def getAll [FromValue δ] (q : Query) (plan : ReadPlan) : StateM σ (List δ) := do
  match ← (c.findAll q plan.readLazily.1).run with
  | .ok found => return found
  | .error _ => return []

/-! ## Writing -/

/-- Inserts a document. -/
def add [ToValue δ] (a : δ) : Action σ Unit := do
  c.backend.insert (← c.store a) c.name

/-- Replaces the first match. -/
def replace [ToValue δ] (a : δ) (q : Query) : Action σ Outcome := do
  c.backend.replace q (← c.store a) c.name

/-- Refuses a query without updates. -/
def requireUpdates (q : Query) : Except StoreError Unit :=
  if q.updates.isEmpty then .error (.invalidAccessor .withoutUpdates) else .ok ()

/-- Updates the first match, or inserts. -/
def update (q : Query) : Action σ Outcome := do
  ExceptT.mk (pure (requireUpdates q))
  c.backend.update q c.name

/-- Updates like `update`, and gives the document as it was before. -/
def updateAndReturn [FromValue δ] (q : Query) : Action σ (Option δ) := do
  ExceptT.mk (pure (requireUpdates q))
  match ← c.backend.findAndUpdate q c.name with
  | none => return none
  | some d => return some (← c.restore d)

/-- Deletes the first match. -/
def delete (q : Query) : Action σ Outcome := c.backend.delete q c.name

/-- The stored form of a write, whose updates have to be there. -/
def prepare [ToValue δ] (book : Codebook) (w : Write δ) : Except StoreError (Write Document) := do
  if let .update q := w then requireUpdates q
  w.mapM book.toStored

/-- Performs a batch. Every write is prepared before the first one is performed, and an empty batch
does not reach the backend. -/
def writeBatch [ToValue δ] (batch : Batch δ) : Action σ Outcome :=
  if batch.isEmpty then pure (.ofCount 0)
  else do
    let batch ← ExceptT.mk (pure (List.mapM (prepare c.book) batch))
    c.backend.write batch c.name

/-- Creates an index on a field, and gives its name. -/
def addIndex (field : String) : Action σ String := c.backend.createIndex field c.name

/-- Creates an index on a typed field. -/
def addIndexOn {α : Type} (field : Field δ α) : Action σ String := c.addIndex field.path

/-- Removes the collection. -/
def remove : Action σ Unit := c.backend.drop c.name

/-! ## Blocking -/

/-- An operation on the current thread; it is not begun when the thread may not wait. -/
def blocking {α : Type} (action : Action σ α) : Action σ α :=
  if c.backend.canBlock then action else throw (.backend (.cannotBlock c.name))

/-- Every match as planned, or the failure of the read. -/
def getAllBlocking [FromValue δ] (q : Query) (plan : ReadPlan) : Action σ (List δ) :=
  c.blocking (c.findAll q plan.shape)

end Collection

/-- Removes the collection of a given name from a backend. -/
def Backend.dropNamed {σ : Type} (backend : Backend σ) (name : String) : Action σ Unit :=
  backend.drop (LowerCase.lower name)

end Dossier
