import Mathlib
import Dossier.Proofs.Edit.Independent
import Dossier.Proofs.Memory.Writes

/-!
# What an update counts

An update of a collection in memory counts one document as soon as the flag of its edit is set.

* **`Memory.affected_tells`**: it counts its match just when that differed on the way, which for
  independent updates is whether it differs in the end;
* `Memory.affected_setBack`: a document that is changed and changed back is counted.
-/

namespace Dossier.Memory

/-- **What an update counts.** The flag of an edit tells whether the document differed on the way,
and of independent updates whether it differs in the end. An update of a collection counts nothing
if there is no match, and else what the flag of the first match tells. -/
theorem affected_tells (q : Query) (name : String) :
    (∀ (d d' : Document) (changed : Bool), d.WellFormed → (Value.document d).NaNFree →
      q.edit d = .ok (d', changed) → q.Tells d d' changed) ∧
    ∀ (memory memory' : Memory) (outcome : Outcome),
      (∀ d ∈ memory.documents name, d.WellFormed ∧ (Value.document d).NaNFree) →
      (backend.update q name).perform memory = (.ok outcome, memory') →
      (outcome = .ofCount 0 ∧ NoMatch q (memory.documents name)) ∨
      ∃ before old after new changed, outcome = .ofCount changed.toNat ∧
        FirstMatch q (memory.documents name) before old after ∧
        memory'.documents name = before ++ new :: after ∧ q.Tells old new changed := by
  refine ⟨fun d d' changed hw hn h => Query.tells_edit hw hn h, fun memory memory' outcome hdocs h => ?_⟩
  obtain ⟨result, next, hu, heq⟩ | ⟨cause, -, heq⟩ :=
    @updateStep_cases Outcome q name (fun result => .ofCount result.2.toNat) memory
  case inr =>
    have hfail := heq.symm.trans h
    cases hfail
  have hdone := heq.symm.trans h
  cases hdone
  obtain ⟨before, old, after, new, changed, hs, hedit, rfl, hnew⟩ | ⟨seed, hnone, -, rfl, -⟩ :=
    update_cases hu
  · have hfirst := FirstMatch.of_splitFirst hs
    obtain ⟨hw, hn⟩ := hdocs old (by simp [hfirst.split])
    exact .inr ⟨before, old, after, new, changed, rfl, hfirst, hnew, Query.tells_edit hw hn hedit⟩
  · exact .inl ⟨rfl, hnone⟩

/-- A note with the mark 1. -/
def note : Document := [("_id", .int32 1), ("mark", .int32 1)]

/-- A collection of one note. -/
def notes : Memory := { collections := [("notes", [note])] }

/-- The mark becomes 2, and 1 again. -/
def setBack : Query where
  updates := [⟨"mark", .assign (.int32 2)⟩, ⟨"mark", .assign (.int32 1)⟩]

theorem wellFormed_note : note.WellFormed ∧ (Value.document note).NaNFree := by
  have hfield : (Value.int32 1).WellFormed := Value.wellFormed_of_isAtom rfl
  constructor
  · simp [note, Document.WellFormed, Entries.Distinct, Entries.keys, hfield]
  · simp [note, Value.NaNFree, Value.Everywhere, Value.EverywhereFields, Value.NotNaN]

theorem wellFormed_notes :
    ∀ d ∈ notes.documents "notes", d.WellFormed ∧ (Value.document d).NaNFree := by
  simpa [notes, documents, Entries.find?_cons] using wellFormed_note

/-- The flag is set because the mark differed on the way, and the updates are not independent. -/
theorem affected_tells_setBack : setBack.Departs note ∧ ¬ setBack.Independent := by
  have hdone : (backend.update setBack "notes").perform notes = (.ok (.ofCount 1), notes) := rfl
  have hflag : setBack.Tells note note true :=
    (affected_tells setBack "notes").1 note note true wellFormed_note.1 wellFormed_note.2 rfl
  obtain ⟨hcount, -⟩ | ⟨before, old, after, new, changed, hcount, hfirst, -, htells⟩ :=
    (affected_tells setBack "notes").2 notes notes (.ofCount 1) wellFormed_notes hdone
  case inl => cases hcount
  obtain ⟨rfl, rfl⟩ : before = [] ∧ old = note := by
    have hsplit := hfirst.split
    cases before with
    | nil => exact ⟨rfl, (List.cons.inj hsplit).1.symm⟩
    | cons first rest => cases rest <;> cases (List.cons.inj hsplit).2
  refine ⟨htells.departs.mp ?_, fun hindependent => ?_⟩
  · cases changed with
    | true => rfl
    | false => cases hcount
  · have hsame : note.same note = true := Value.same_self wellFormed_note.1 wellFormed_note.2
    rw [(hflag.exact hindependent).mp rfl] at hsame
    cases hsame

/-- The update is counted although the collection is as it was, a document without NaN. -/
theorem affected_setBack :
    (∀ d ∈ notes.documents "notes", d.WellFormed ∧ (Value.document d).NaNFree) ∧
      (backend.update setBack "notes").perform notes = (.ok (.ofCount 1), notes) ∧
      ∀ d ∈ notes.documents "notes", d.same d = true :=
  ⟨wellFormed_notes, rfl, fun d hd =>
    Value.same_self (wellFormed_notes d hd).1 (wellFormed_notes d hd).2⟩

end Dossier.Memory
