import Dossier.Operator
import Dossier.Query.Build
import Dossier.Read.Shape

/-!
# Plans for reads

A plan collects sort keys, a page and a projection. It keeps two shapes: one is complete after every
call, the other gets its sort keys only when it is read after a `sort`.

* **`ReadPlan`**, `ReadPlan.sort`, `skip`, `limit`, `select`, `reset`;
* **`ReadPlan.shape`**, **`ReadPlan.readLazily`**: the shape by either way of reading.
-/

namespace Dossier

/-- A plan for reads. -/
structure ReadPlan where
  /-- The sort keys in the order of the calls. -/
  sorters : List (String × Direction) := []
  /-- The shape that is complete after every call. -/
  shape : ReadShape := {}
  /-- The shape whose sort keys may be out of date. -/
  lazyShape : ReadShape := {}
  /-- Whether the sort keys of the lazy shape are out of date. -/
  stale : Bool := false

namespace ReadPlan

/-- The plan of a read of everything. -/
def empty : ReadPlan := {}

/-- The sort document of a list of sort keys; a repeated key keeps its place and takes its last
direction. -/
def sortDocument (sorters : List (String × Direction)) : Document :=
  Entries.ofList (sorters.map fun sorter => (sorter.1, .int32 sorter.2.sign))

/-- Adds a sort key. -/
def sort (plan : ReadPlan) (field : String) (direction : Direction) : ReadPlan :=
  let sorters := plan.sorters ++ [(field, direction)]
  { plan with
    sorters, stale := true, shape := { plan.shape with sort := some (sortDocument sorters) } }

/-- Adds a sort key on a typed field. -/
def sortOn {δ α : Type} (plan : ReadPlan) (field : Field δ α) (direction : Direction) : ReadPlan :=
  plan.sort field.path direction

/-- Leaves out the first documents. -/
def skip (plan : ReadPlan) (count : UInt64) : ReadPlan :=
  { plan with
    shape := { plan.shape with skip := some count }
    lazyShape := { plan.lazyShape with skip := some count } }

/-- Limits the number of documents. -/
def limit (plan : ReadPlan) (count : Int64) : ReadPlan :=
  { plan with
    shape := { plan.shape with limit := some count }
    lazyShape := { plan.lazyShape with limit := some count } }

/-- Keeps one field of every document; an earlier choice is forgotten. -/
def select (plan : ReadPlan) (field : String) : ReadPlan :=
  let projection := Entries.ofList [(field, .int32 1), ("_id", .int32 0)]
  { plan with
    shape := { plan.shape with projection := some projection }
    lazyShape := { plan.lazyShape with projection := some projection } }

/-- Keeps one typed field of every document. -/
def selectOn {δ α : Type} (plan : ReadPlan) (field : Field δ α) : ReadPlan :=
  plan.select field.path

/-- Forgets every call. -/
def reset (_ : ReadPlan) : ReadPlan := {}

/-- Reads the lazy shape, bringing its sort keys up to date first. -/
def readLazily (plan : ReadPlan) : ReadShape × ReadPlan :=
  if plan.stale then
    let lazyShape := { plan.lazyShape with sort := some (sortDocument plan.sorters) }
    (lazyShape, { plan with lazyShape, stale := false })
  else (plan.lazyShape, plan)

end ReadPlan

end Dossier
