import Dossier.Value.Equality

/-!
# Shapes of reads

* **`ReadShape`**: in which order, how many and which parts of the matching documents a read gives;
* `ReadShape.same`: equality of shapes, sort keys compared without regard to their order.
-/

namespace Dossier

/-- The order, the page and the projection of a read. -/
structure ReadShape where
  /-- Sort keys, the most significant first; a negative integer sorts downwards. -/
  sort : Option Document := none
  skip : Option UInt64 := none
  /-- Zero is no limit, and a negative limit counts as its absolute value. -/
  limit : Option Int64 := none
  /-- The paths to keep; a zero or false leaves a path out. -/
  projection : Option Document := none
  deriving Inhabited

/-- Whether two optional documents are both missing or both the same. -/
def Document.sameOptional : Option Document → Option Document → Bool
  | none, none => true
  | some d, some e => d.same e
  | _, _ => false

/-- Whether two shapes are the same. -/
def ReadShape.same (a b : ReadShape) : Bool :=
  Document.sameOptional a.sort b.sort && a.skip == b.skip && a.limit == b.limit &&
    Document.sameOptional a.projection b.projection

end Dossier
