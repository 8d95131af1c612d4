import Dossier.Batch
import Dossier.Error
import Dossier.Read.Shape

/-!
# Backends

A backend keeps documents in named collections. Its operations are actions on a state of its own;
what an action changed before it failed stays changed.

* `Action`: an action on a state that can fail;
* **`Backend`**: the operations that collections are built on.
-/

namespace Dossier

/-- An action on the state `σ` of a backend. -/
abbrev Action (σ : Type) : Type → Type := ExceptT StoreError (StateM σ)

namespace Action

variable {σ α : Type}

/-- The action of a step of the state. -/
def ofStep (step : σ → Except StoreError α × σ) : Action σ α := ExceptT.mk step

/-- Performs an action. -/
def perform (action : Action σ α) (state : σ) : Except StoreError α × σ :=
  (ExceptT.run action).run state

@[simp] theorem perform_ofStep (step : σ → Except StoreError α × σ) (state : σ) :
    (ofStep step).perform state = step state := rfl

end Action

/-- A place that keeps documents in named collections. -/
structure Backend (σ : Type) where
  /-- The matching documents in a wanted shape. -/
  find : Query → ReadShape → String → Action σ (List Document)
  /-- The number of documents. -/
  count : String → Action σ Nat
  insert : Document → String → Action σ Unit
  /-- Replaces the first match. -/
  replace : Query → Document → String → Action σ Outcome
  /-- Updates the first match, or inserts. -/
  update : Query → String → Action σ Outcome
  /-- Updates like `update`, and gives the document as it was before. -/
  findAndUpdate : Query → String → Action σ (Option Document)
  /-- Deletes the first match. -/
  delete : Query → String → Action σ Outcome
  /-- Performs writes in order. -/
  write : Batch Document → String → Action σ Outcome
  /-- Creates an index on a field, and gives its name. -/
  createIndex : String → String → Action σ String
  /-- Removes a collection with its documents. -/
  drop : String → Action σ Unit
  /-- Whether the current thread may wait for the backend. -/
  canBlock : Bool := true

end Dossier
