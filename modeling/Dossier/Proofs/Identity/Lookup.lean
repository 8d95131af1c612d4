import Mathlib
import Dossier.Proofs.Identity.Confused
import Dossier.Proofs.Memory.Writes
import Dossier.Query.Build

/-!
# Lookups by identity

A filter for an identity accepts the documents whose identity it confuses with the wanted one.

* `Document.HasIdentity`, `Document.HasOther`: documents by identity;
* **`Query.filterById?_equals`**: what the filter for an identity accepts, when it is exact, and
  what reads and single writes with it then leave alone.
-/

namespace Dossier

/-! ## Documents by identity -/

namespace Document

/-- Whether a document is stored under an identity. -/
def HasIdentity (d : Document) (a : Identity) : Prop := d.find? "_id" = some a.toValue

/-- Whether a document is stored under another identity than `b`. -/
def HasOther (d : Document) (b : Identity) : Prop := ∃ a, a ≠ b ∧ d.HasIdentity a

theorem equalsAt_identity {d : Document} {a : Identity} (h : d.HasIdentity a) (b : Identity) :
    d.equalsAt (Dotted.segments "_id") b.toValue = a.toValue.alike b.toValue := by
  have hreach : d.reach (Dotted.segments "_id") = [a.toValue] := by
    rw [show Dotted.segments "_id" = ["_id"] from rfl, reach, h]
    rfl
  have hitems : a.toValue.items = [] := by cases a <;> rfl
  have hany : d.equalsAt (Dotted.segments "_id") b.toValue =
      (d.candidates (Dotted.segments "_id")).any (·.alike b.toValue) := by
    cases b <;> rfl
  rw [hany, candidates, hreach]
  simp [hitems]

end Document

namespace Query

/-- The condition of a filter for an identity. -/
def identifies (b : Identity) : Condition := .compare "_id" .equals b.toValue

theorem holds_identifies_iff {d : Document} {a : Identity} (h : d.HasIdentity a) (b : Identity) :
    (identifies b).holds d = true ↔ a.Confused b := by
  rw [identifies, Condition.holds, Document.compareAt, Document.equalsAt_identity h,
    Identity.alike_toValue_iff]

theorem accepts_addCondition (q : Query) (c : Condition) (d : Document) :
    (q.addCondition c).accepts d = true ↔ q.accepts d = true ∧ c.holds d = true := by
  rw [accepts, addCondition, accepts, Condition.allHold_iff, Condition.allHold_iff,
    List.forall_mem_append, List.forall_mem_singleton]

theorem not_accepts_of_hasOther {b : Identity} (hb : b.Exact) (q : Query) {d : Document}
    (h : d.HasOther b) : (q.addCondition (identifies b)).accepts d = false := by
  obtain ⟨a, hne, ha⟩ := h
  rw [Bool.eq_false_iff, Ne, accepts_addCondition, holds_identifies_iff ha]
  rintro ⟨-, hconf⟩
  exact hne ((Identity.forall_confused_iff_exact b).mpr hb a hconf)

/-- **A filter for an identity** is always recorded. It takes a document for the wanted one iff the
identities are confused, so it is exact iff the identity is. Then a read finds the same with or
without documents of other identities, and single writes keep those. -/
theorem filterById?_equals (q : Query) (b : Identity) :
    ∃ c, q.filterById? b .equals = some (q.addCondition c) ∧
      (∀ (a : Identity) (d : Document), d.HasIdentity a → (c.holds d = true ↔ a.Confused b)) ∧
      ((∀ (a : Identity) (d : Document), d.HasIdentity a → (c.holds d = true ↔ a = b)) ↔
        b.Exact) ∧
      (b.Exact →
        (∀ (documents : List Document) (keep : Document → Bool) (shape : ReadShape),
          (∀ d ∈ documents, keep d = false → d.HasOther b) →
          shape.read (q.addCondition c) documents =
            shape.read (q.addCondition c) (documents.filter keep)) ∧
        ∀ (kept : List Document) (name : String), (∀ d ∈ kept, d.HasOther b) →
          (∀ new, Memory.Keeps kept name (Memory.backend.replace (q.addCondition c) new name)) ∧
          Memory.Keeps kept name (Memory.backend.update (q.addCondition c) name) ∧
          Memory.Keeps kept name (Memory.backend.findAndUpdate (q.addCondition c) name) ∧
          Memory.Keeps kept name (Memory.backend.delete (q.addCondition c) name)) := by
  refine ⟨identifies b, rfl, fun a d h => holds_identifies_iff h b, ?_, fun hb => ⟨?_, ?_⟩⟩
  · rw [← Identity.forall_confused_iff_exact]
    constructor
    · intro h a hconf
      have ha : Document.HasIdentity [("_id", a.toValue)] a := rfl
      exact (h a _ ha).mp ((holds_identifies_iff ha b).mpr hconf)
    · intro h a d ha
      rw [holds_identifies_iff ha]
      exact ⟨h a, fun e => e ▸ Identity.Confused.refl a⟩
  · intro documents keep shape h
    refine (shape.read_filter _ fun d hd hacc => ?_).symm
    by_contra hk
    have := not_accepts_of_hasOther hb q (h d hd (Bool.eq_false_iff.mpr hk))
    rw [hacc] at this
    cases this
  · intro kept name h
    have hq : ∀ d ∈ kept, (q.addCondition (identifies b)).accepts d = false := fun d hd =>
      not_accepts_of_hasOther hb q (h d hd)
    exact ⟨Memory.keeps_replace hq name, Memory.keeps_update hq name,
      Memory.keeps_findAndUpdate hq name, Memory.keeps_delete hq name⟩

/-- The filter for `2 ^ 53` accepts a document of the next integer. -/
theorem filterById?_next_integer :
    (empty.filterById? (.integer 9007199254740992) .equals).map
      (·.accepts [("_id", Identity.toValue (.integer 9007199254740993))]) = some true := by
  rfl

end Query

end Dossier
