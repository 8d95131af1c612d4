import Dossier.Number.Double
import Dossier.Text.Dotted
import Dossier.Value.Path

/-!
# Projections

* **`Document.project`**: the identity, unless it is left out, followed by what the included paths
  lead to through nested documents.
-/

namespace Dossier

/-- Whether a flag includes its path; only zero and false do not. -/
def Value.isIncluded : Value → Bool
  | .int32 n => n ≠ 0
  | .int64 n => n ≠ 0
  | .double x => !Double.equal x 0
  | .bool b => b
  | _ => true

namespace Document

/-- Copies what a path leads to through nested documents; where it leads to nothing, nothing is
copied. -/
def copyPath : Path → Document → Document → Document
  | [], _, target => target
  | [key], source, target =>
    match Entries.find? source key with
    | some v => Entries.insert target key v
    | none => target
  | key :: next :: rest, source, target =>
    match Entries.find? source key with
    | some (.document inner) =>
      let nested := copyPath (next :: rest) inner
        (((Entries.find? target key).bind Value.fields?).getD [])
      if nested.isEmpty then target else Entries.insert target key (.document nested)
    | _ => target

/-- Whether a projection keeps the identity. -/
def keepsId (projection : Document) : Bool := (projection.find? "_id").all Value.isIncluded

/-- The paths that a projection includes beside the identity. -/
def includedPaths (projection : Document) : List Path :=
  (projection.filter fun field => field.1 ≠ "_id" && field.2.isIncluded).map fun field =>
    Dotted.segments field.1

/-- The part of a document that a projection keeps. -/
def project (projection d : Document) : Document :=
  projection.includedPaths.foldl (fun target path => copyPath path d target)
    (if projection.keepsId then copyPath ["_id"] d [] else [])

end Document

end Dossier
