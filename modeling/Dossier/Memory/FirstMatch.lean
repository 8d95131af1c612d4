import Dossier.Batch
import Dossier.Edit
import Dossier.Value.Equality

/-!
# Writes to the first match

Single writes act on the first document that a query accepts and leave all others where they are.

* **`splitFirst`**: the documents before the first match, the match, and those after it;
* `replaceFirst`, `deleteFirst`, `updateFirst?`: the single writes on a list of documents.
-/

namespace Dossier

/-- The elements before the first one that passes, that one, and the elements after it. -/
def splitFirst {α : Type} (test : α → Bool) : List α → Option (List α × α × List α)
  | [] => none
  | a :: rest =>
    if test a then some ([], a, rest)
    else (splitFirst test rest).map fun (before, found, after) => (a :: before, found, after)

theorem splitFirst_eq_some {α : Type} {test : α → Bool} {as before after : List α} {found : α}
    (h : splitFirst test as = some (before, found, after)) :
    as = before ++ found :: after ∧ test found ∧ ∀ a ∈ before, test a = false := by
  induction as generalizing before with
  | nil => simp [splitFirst] at h
  | cons a rest ih =>
    simp only [splitFirst] at h
    split at h
    · rename_i ha
      simp only [Option.some.injEq, Prod.mk.injEq] at h
      obtain ⟨rfl, rfl, rfl⟩ := h
      simp [ha]
    · rename_i ha
      simp only [Option.map_eq_some_iff, Prod.exists, Prod.mk.injEq] at h
      obtain ⟨b, f, e, hs, rfl, rfl, rfl⟩ := h
      obtain ⟨rfl, hf, hb⟩ := ih hs
      refine ⟨rfl, hf, fun x hx => ?_⟩
      rcases List.mem_cons.mp hx with rfl | hx
      · simpa using ha
      · exact hb x hx

theorem splitFirst_eq_none {α : Type} {test : α → Bool} {as : List α} :
    splitFirst test as = none ↔ ∀ a ∈ as, test a = false := by
  induction as with
  | nil => simp [splitFirst]
  | cons a rest ih =>
    by_cases ha : test a <;> simp [splitFirst, ha, ih]

theorem splitFirst_append_singleton {α : Type} {test : α → Bool} {as : List α} {a : α}
    (has : ∀ x ∈ as, test x = false) (ha : test a = true) :
    splitFirst test (as ++ [a]) = some (as, a, []) := by
  induction as with
  | nil => simp [splitFirst, ha]
  | cons x rest ih =>
    have hx : test x = false := has x List.mem_cons_self
    have hrest := ih fun y hy => has y (List.mem_cons_of_mem _ hy)
    simp [splitFirst, hx, hrest]

namespace Memory

/-- A document that takes the place of another: it keeps that one's identity. -/
def successor (old new : Document) : Document :=
  match old.find? "_id" with
  | some id => new.insert "_id" id
  | none => new

/-- Replaces the first match. -/
def replaceFirst (q : Query) (new : Document) (documents : List Document) :
    Outcome × List Document :=
  match splitFirst q.accepts documents with
  | none => (.ofCount 0, documents)
  | some (before, old, after) =>
    let new := successor old new
    (.ofCount (if old.same new then 0 else 1), before ++ new :: after)

/-- Deletes the first match. -/
def deleteFirst (q : Query) (documents : List Document) : Outcome × List Document :=
  match splitFirst q.accepts documents with
  | none => (.ofCount 0, documents)
  | some (before, _, after) => (.ofCount 1, before ++ after)

/-- What an update of a match did. -/
structure Updated where
  /-- The match as it was before. -/
  before : Document
  changed : Bool
  /-- All documents after the update. -/
  documents : List Document

/-- Updates the first match. -/
def updateFirst? (q : Query) (documents : List Document) : Except UpdateError (Option Updated) :=
  match splitFirst q.accepts documents with
  | none => .ok none
  | some (before, old, after) =>
    (q.edit old).map fun (new, changed) => some ⟨old, changed, before ++ new :: after⟩

end Memory

end Dossier
