import Dossier.Text.Dotted
import Dossier.Value.Order
import Dossier.Value.Path

/-!
# Order of documents

Documents are ordered by sort keys, the first key on which they differ deciding. A key is the first
value that a path reaches.

* `compareKeys`: missing and null first; keys without an order count as equal;
* **`Document.compareBy`**: the order by a sort document;
* **`sortDocuments`**: stable sorting.
-/

namespace Dossier

/-- Whether a sort key is missing or null. -/
def isBlankKey : Option Value → Bool
  | none | some .null => true
  | _ => false

/-- The order of two sort keys. -/
def compareKeys (left right : Option Value) : Ordering :=
  match isBlankKey left, isBlankKey right with
  | true, true => .eq
  | true, false => .lt
  | false, true => .gt
  | false, false =>
    match left, right with
    | some v, some w => (v.compare? w).getD .eq
    | _, _ => .eq

/-- Whether a direction in a sort document is downwards. -/
def Value.isDescending : Value → Bool
  | .int32 n => n < 0
  | .int64 n => n < 0
  | _ => false

namespace Document

/-- The key of a document under a dotted path. -/
def sortKey (d : Document) (path : String) : Option Value := (d.reach (Dotted.segments path)).head?

/-- The order of two documents by one field of a sort document. -/
def compareField (field : String × Value) (d e : Document) : Ordering :=
  let ordering := compareKeys (d.sortKey field.1) (e.sortKey field.1)
  if field.2.isDescending then ordering.swap else ordering

/-- The order of two documents by a sort document. -/
def compareBy : Document → Document → Document → Ordering
  | [], _, _ => .eq
  | field :: rest, d, e => (compareField field d e).then (compareBy rest d e)

end Document

/-- The documents in the order of a sort document; equal ones keep their order. This is the only such
arrangement where the comparison is a total preorder. Where it is none, as among the keys 2, `x` and 1
of which the text equals both numbers, the arrangement is that of this way of sorting, and another one
may leave the documents otherwise. -/
def sortDocuments (order : Document) (documents : List Document) : List Document :=
  documents.mergeSort fun d e => (order.compareBy d e).isLE

end Dossier
