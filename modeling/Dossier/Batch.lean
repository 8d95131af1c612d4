import Dossier.Query

/-!
# Batches of writes

* **`Write`**: one write; `Write.mapM` converts the document that it carries;
* **`Batch`**: writes in the order in which they were added;
* `Outcome`: how many documents a write affected, and whether the backend vouches for it.
-/

namespace Dossier

/-- A write of a batch; `δ` is the form of the documents. -/
inductive Write (δ : Type) where
  | delete (filter : Query)
  | replace (filter : Query) (document : δ)
  | update (query : Query)
  | create (document : δ)

namespace Write

variable {δ ε ζ : Type}

/-- The name of the kind of a write. -/
def kind : Write δ → String
  | delete _ => "delete"
  | replace _ _ => "replace"
  | update _ => "update"
  | create _ => "create"

/-- Converts the document that a write carries. -/
def mapM (f : δ → Except ζ ε) : Write δ → Except ζ (Write ε)
  | delete filter => .ok (delete filter)
  | replace filter d => (f d).map (replace filter)
  | update q => .ok (update q)
  | create d => (f d).map create

end Write

/-- Writes in the order in which they were added. -/
abbrev Batch (δ : Type) : Type := List (Write δ)

namespace Batch

variable {δ : Type}

/-- Adds the insertion of a document. -/
def create (batch : Batch δ) (d : δ) : Batch δ := batch ++ [.create d]

/-- Adds the replacement of the first match. -/
def replace (batch : Batch δ) (filter : Query) (d : δ) : Batch δ := batch ++ [.replace filter d]

/-- Adds an update of the first match. -/
def update (batch : Batch δ) (q : Query) : Batch δ := batch ++ [.update q]

/-- Adds the deletion of the first match. -/
def delete (batch : Batch δ) (filter : Query) : Batch δ := batch ++ [.delete filter]

/-- Removes every write. -/
def clear (_ : Batch δ) : Batch δ := []

end Batch

/-- What a write did. -/
structure Outcome where
  acknowledged : Bool := false
  affected : Nat := 0
  deriving DecidableEq, Repr

namespace Outcome

/-- An acknowledged write of so many documents. -/
def ofCount (affected : Nat) : Outcome := ⟨true, affected⟩

/-- A write that the backend does not vouch for. -/
def unacknowledged : Outcome := {}

end Outcome

end Dossier
