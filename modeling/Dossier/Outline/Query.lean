import Dossier.Batch
import Dossier.Codebook
import Dossier.Outline.Value
import Dossier.Read.Plan

/-!
# Outlines of queries, plans, batches and codebooks

* `Condition.outline`, `Change.outline`, `Update.outline`, `Binding.outline`;
* **`Query.outline`** under a name of choice, `Batch.outline`, `ReadPlan.outline`,
  `Codebook.outline`, `Field.outline`;
* `Binding.display`: a binding as an equation.
-/

namespace Dossier

/-- The outline of a recorded entry with its operator and operand. -/
def entryOutline (name field op : String) (operand : Outline) : Outline :=
  .record name [("field", .text field), ("op", .atom op), ("operand", operand)]

mutual

/-- The outline of a condition. -/
def Condition.outline : Condition → Outline
  | .compare field relation operand =>
    entryOutline "FilterFragment" field relation.op.name (.tuple "Value" [operand.outline])
  | .present field expected =>
    entryOutline "FilterFragment" field (Condition.present field expected).op.name (.atom "None")
  | .member field operands expected =>
    entryOutline "FilterFragment" field (Condition.member field operands expected).op.name
      (.tuple "Set" [.list (operands.map Value.outline)])
  | .element field conditions =>
    entryOutline "FilterFragment" field FilterOp.arrayElementField.name
      (.tuple "Element" [.list (Condition.outlines conditions)])

/-- The outlines of conditions. -/
def Condition.outlines : List Condition → List Outline
  | [] => []
  | c :: rest => Condition.outline c :: Condition.outlines rest

end

/-- The outline of the operand of a change. -/
def Change.outline : Change → Outline
  | .remove | .removeFirst | .removeLast => .atom "None"
  | .increment amount | .multiply amount => .tuple "Numeric" [amount.toValue.outline]
  | .pullMatching conditions => .tuple "Matching" [.list (Condition.outlines conditions)]
  | .assign v | .addUnique v | .keepGreater v | .keepLower v | .pull v | .append v =>
    .tuple "Value" [v.outline]

/-- The outline of an update. -/
def Update.outline (u : Update) : Outline :=
  entryOutline "UpdateFragment" u.field u.change.op.name u.change.outline

/-- The outline of a binding. -/
def Binding.outline (b : Binding) : Outline :=
  .record "ArrayFilterFragment"
    [("placeholder", .text b.placeholder), ("field", .text b.field), ("value", b.value.outline)]

/-- A binding as an equation. -/
def Binding.display (b : Binding) : String := b.path ++ " == " ++ b.value.display

/-- The outline of a query under a name. -/
def Query.outlineAs (name : String) (q : Query) : Outline :=
  .record name
    [("filters", .list (Condition.outlines q.conditions)),
      ("updates", .list (q.updates.map Update.outline)),
      ("array_filters", .list (q.bindings.map Binding.outline))]

/-- The outline of a query that is being built. -/
def Query.outline (q : Query) : Outline := q.outlineAs "Accessor"

/-- The outline of a query inside a write. -/
def Query.partOutline (q : Query) : Outline := q.outlineAs "Fragments"

/-- The outline of a write. -/
def Write.outline : Write Document → Outline
  | .delete filter => .record "Delete" [("filter", filter.partOutline)]
  | .replace filter d =>
    .record "Replace" [("filter", filter.partOutline), ("document", d.outline)]
  | .update q => .record "Update" [("fragments", q.partOutline)]
  | .create d => .record "Create" [("document", d.outline)]

/-- The outline of a batch. -/
def Batch.outline (batch : Batch Document) : Outline := .list (batch.map Write.outline)

/-- The outline of a shape. -/
def ReadShape.outline (shape : ReadShape) : Outline :=
  .record "ReadOptions"
    [("sort", .option Document.outline shape.sort),
      ("skip", .option (fun n => .atom (toString n.toNat)) shape.skip),
      ("limit", .option (fun n => .atom (toString n.toInt)) shape.limit),
      ("projection", .option Document.outline shape.projection)]

/-- The outline of a plan. -/
def ReadPlan.outline (plan : ReadPlan) : Outline :=
  .record "Constraints"
    [("sorters", .list (plan.sorters.map fun sorter =>
        .tuple "" [.text sorter.1, .atom sorter.2.name])),
      ("options", plan.shape.outline)]

/-- The outline of a codebook that is being set up. -/
def Codebook.outline (book : Codebook) : Outline :=
  .record "Registrar"
    [("packs", .list (book.packs.map fun pack =>
        .tuple "" [.text pack.1, .list (pack.2.map fun policy => .atom policy.name)])),
      ("codecs", .list (book.codecs.keys.map .text))]

/-- The outline of a typed field. -/
def Field.outline {δ α : Type} (field : Field δ α) : Outline := .tuple "Field" [.text field.path]

end Dossier
