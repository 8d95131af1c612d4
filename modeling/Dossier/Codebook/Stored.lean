import Dossier.Codebook
import Dossier.Storable

/-!
# Stored forms of typed data

* **`Codebook.toStored`**: a datum as a value, which has to be a document, and then in its stored
  form;
* **`Codebook.fromStored`**: a stored document read back.
-/

namespace Dossier

namespace Codebook

variable {δ : Type}

/-- The stored form of a datum. -/
def toStored [ToValue δ] (book : Codebook) (a : δ) : Except StoreError Document := do
  match ← toValue a with
  | .document d => book.encodeDocument d
  | v => .error (.invalidDocument (.notADocument v.kind))

/-- The datum that a stored document holds. -/
def fromStored [FromValue δ] (book : Codebook) (d : Document) : Except StoreError δ := do
  fromValue (.document (← book.decodeDocument d))

end Codebook

end Dossier
