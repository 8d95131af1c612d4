import Dossier.Text.Dotted
import Dossier.Text.Numeral
import Dossier.Value

/-!
# Values along dotted paths

Two readers share the step from a value to what one segment names.

* **`Document.at?`**: follows documents by key and arrays by position, to at most one value;
* `Document.replaceAt?`: puts another value where `at?` finds one, and fails where it finds none;
* **`Document.reach`**: also fans out over an array whose next segment is no position, collecting
  the field of every document in it.
-/

namespace Dossier

/-- The segments of a dotted path. -/
abbrev Path : Type := List String

namespace Value

/-- The value that one segment names inside a document or an array. -/
def child? : Value → String → Option Value
  | document fields, segment => Entries.find? fields segment
  | array items, segment => (Numeral.index? segment).bind (items[·]?)
  | _, _ => none

/-- Every value that one segment names, fanning out over an array unless it names a position. -/
def children (segment : String) : Value → List Value
  | document fields => (Entries.find? fields segment).toList
  | array items =>
    match Numeral.index? segment with
    | some index => items[index]?.toList
    | none => items.filterMap fun
      | document fields => Entries.find? fields segment
      | _ => none
  | _ => []

/-- The value at a path inside a value. -/
def descend? : Value → Path → Option Value
  | v, [] => some v
  | v, segment :: rest => (v.child? segment).bind (descend? · rest)

/-- The value with what one segment names replaced. -/
def replaceChild? : Value → String → Value → Option Value
  | document fields, segment, new =>
    if Entries.contains fields segment then some (document (Entries.insert fields segment new))
    else none
  | array items, segment, new =>
    match Numeral.index? segment with
    | some index => if index < items.length then some (array (items.set index new)) else none
    | none => none
  | _, _, _ => none

/-- The value with what a path names replaced. -/
def replace? : Value → Path → Value → Option Value
  | _, [], new => some new
  | v, segment :: rest, new => do
    let child ← v.child? segment
    v.replaceChild? segment (← replace? child rest new)

end Value

namespace Document

/-- The value at a path, through documents by key and arrays by position. -/
def at? (d : Document) : Path → Option Value
  | [] => none
  | first :: rest => (Entries.find? d first).bind (Value.descend? · rest)

/-- The document with the value at a path replaced. -/
def replaceAt? (d : Document) : Path → Value → Option Document
  | [], _ => none
  | first :: rest, new => do
    let child ← Entries.find? d first
    return Entries.insert d first (← child.replace? rest new)

/-- Every value that a path reaches, fanning out over arrays. -/
def reach (d : Document) : Path → List Value
  | [] => []
  | first :: rest =>
    rest.foldl (fun reached segment => reached.flatMap (Value.children segment))
      (Entries.find? d first).toList

end Document

end Dossier
