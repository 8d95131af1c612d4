import Dossier.Query
import Dossier.Read.Order
import Dossier.Read.Projection
import Dossier.Read.Shape

/-!
# Reading documents

* **`ReadShape.read`**: the documents that a query accepts, sorted, paged and projected;
* `ReadShape.page`: leaves out the first `skip` documents and takes at most as many as the limit.
-/

namespace Dossier

namespace ReadShape

/-- How many documents a read gives at most. -/
def size? (shape : ReadShape) : Option Nat :=
  shape.limit.bind fun n => if n = 0 then none else some n.toInt.natAbs

/-- The documents of the wanted page. -/
def page (shape : ReadShape) (documents : List Document) : List Document :=
  let rest := documents.drop ((shape.skip.map UInt64.toNat).getD 0)
  match shape.size? with
  | some size => rest.take size
  | none => rest

/-- The documents in the wanted order. -/
def arrange (shape : ReadShape) (documents : List Document) : List Document :=
  match shape.sort with
  | some order => sortDocuments order documents
  | none => documents

/-- The wanted part of a document. -/
def cut (shape : ReadShape) (d : Document) : Document :=
  match shape.projection with
  | some projection => projection.project d
  | none => d

/-- What a read of `documents` gives. -/
def read (shape : ReadShape) (q : Query) (documents : List Document) : List Document :=
  (shape.page (shape.arrange (documents.filter q.accepts))).map shape.cut

end ReadShape

end Dossier
