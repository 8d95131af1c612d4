import Mathlib
import Dossier.Proofs.Codebook.Along

/-!
# Registered codebooks

* **`Codebook.Registered`**: what registrations and commits make of the empty codebook;
* `Codebook.Registered.proper`, `Codebook.exists_registered`: these are the codebooks with at most
  one codec for a path and none for the empty one.
-/

namespace Dossier

theorem Entries.distinct_append_singleton {α : Type} {entries : Entries α} {key : String} {v : α} :
    Distinct (entries ++ [(key, v)]) ↔ entries.Distinct ∧ key ∉ entries.keys := by
  rw [Distinct, keys, List.map_append, List.map_singleton, ← List.concat_eq_append,
    List.nodup_concat, and_comm]
  rfl

namespace Codebook

/-- What registrations and commits make of the empty codebook. -/
inductive Registered : Codebook → Prop where
  | empty : Registered empty
  | policies {book next : Codebook} {name : String} {policies : List Policy} : Registered book →
      book.registerPolicies name policies = some next → Registered next
  | codec {book next : Codebook} {field : String} {codec : Codec} : Registered book →
      book.registerCodec field codec = some next → Registered next
  | commit {book staged next : Codebook} : Registered book → Registered staged →
      book.commit staged = some next → Registered next

/-- At most one codec for a path, and none for the empty one. -/
structure Proper (book : Codebook) : Prop where
  distinct : book.codecs.Distinct
  empty_not_mem : "" ∉ book.codecs.keys

variable {book next : Codebook} {name field : String} {policies : List Policy} {codec : Codec}

theorem codecs_registerPolicies (h : book.registerPolicies name policies = some next) :
    next.codecs = book.codecs := by
  rw [registerPolicies] at h
  split at h
  · cases h
  · cases h
    rfl

theorem registerCodec_eq_some : book.registerCodec field codec = some next ↔
    field ≠ "" ∧ field ∉ book.codecs.keys ∧
      next = { book with codecs := book.codecs ++ [(field, codec)] } := by
  have hmem : book.codecs.contains field = true ↔ field ∈ book.codecs.keys := by
    rw [Entries.contains, Option.isSome_iff_ne_none, Ne, Entries.find?_eq_none_iff, not_not]
  simp only [registerCodec, String.isEmpty_iff, hmem]
  split
  case isTrue h => simp only [reduceCtorEq, false_iff]; tauto
  case isFalse h => rw [Option.some.injEq, eq_comm (b := next)]; tauto

theorem Proper.registerPolicies (h : book.Proper)
    (hn : book.registerPolicies name policies = some next) : next.Proper := by
  have hcodecs := codecs_registerPolicies hn
  exact ⟨hcodecs ▸ h.distinct, hcodecs ▸ h.empty_not_mem⟩

theorem Proper.registerCodec (h : book.Proper) (hn : book.registerCodec field codec = some next) :
    next.Proper := by
  obtain ⟨hfield, hmem, rfl⟩ := registerCodec_eq_some.mp hn
  refine ⟨Entries.distinct_append_singleton.mpr ⟨h.distinct, hmem⟩, ?_⟩
  simpa [Entries.keys, hfield.symm] using h.empty_not_mem

theorem Proper.merge (h : book.Proper) (staged : Codebook) : (book.merge staged).Proper := by
  refine List.foldlRecOn (motive := Proper) _ _ ?_ fun book hb entry _ => ?_
  · refine List.foldlRecOn (motive := Proper) _ _ h fun book hb pack _ => ?_
    cases hr : book.registerPolicies pack.1 pack.2 with
    | none => exact hb
    | some next => exact hb.registerPolicies hr
  · cases hr : book.registerCodec entry.1 entry.2 with
    | none => exact hb
    | some next => exact hb.registerCodec hr

theorem Registered.proper (h : book.Registered) : book.Proper := by
  induction h with
  | empty => exact ⟨List.nodup_nil, List.not_mem_nil⟩
  | policies _ hr ih => exact ih.registerPolicies hr
  | codec _ hr ih => exact ih.registerCodec hr
  | @commit book staged next _ _ hc ih _ =>
    rw [Codebook.commit] at hc
    split at hc
    · cases hc
    · cases hc
      exact ⟨(ih.merge staged).distinct, (ih.merge staged).empty_not_mem⟩

theorem follows_of_packs (h : book.packs = []) (policy : Policy) : book.follows policy = false := by
  rw [follows, h, List.any_nil]

theorem exists_registered (codecs : Entries Codec) (hd : codecs.Distinct) (hn : "" ∉ codecs.keys) :
    ∃ book : Codebook, book.Registered ∧ book.packs = [] ∧ book.codecs = codecs := by
  induction codecs using List.reverseRecOn with
  | nil => exact ⟨empty, .empty, rfl, rfl⟩
  | append_singleton codecs entry ih =>
    obtain ⟨field, codec⟩ := entry
    obtain ⟨hd, hmem⟩ := Entries.distinct_append_singleton.mp hd
    simp only [Entries.keys, List.map_append, List.mem_append, not_or] at hn
    obtain ⟨book, hbook, hpacks, rfl⟩ := ih hd hn.1
    have hfield : field ≠ "" := fun h => hn.2 (by simp [h])
    exact ⟨_, hbook.codec (registerCodec_eq_some.mpr ⟨hfield, hmem, rfl⟩), hpacks, rfl⟩

/-- And with them a pack that escapes keys, or none. -/
theorem exists_registered_follows (codecs : Entries Codec) (hd : codecs.Distinct)
    (hn : "" ∉ codecs.keys) (escapes : Bool) :
    ∃ book : Codebook, book.Registered ∧ book.follows .escapeReservedKeys = escapes ∧
      book.codecs = codecs := by
  obtain ⟨book, hbook, hpacks, rfl⟩ := exists_registered codecs hd hn
  cases escapes with
  | false => exact ⟨book, hbook, follows_of_packs hpacks _, rfl⟩
  | true =>
    have hr : book.registerPolicies "keys" [.escapeReservedKeys] =
        some { book with packs := [("keys", [.escapeReservedKeys])] } := by
      rw [registerPolicies, hpacks]
      rfl
    exact ⟨_, hbook.policies hr, rfl, rfl⟩

end Codebook

end Dossier
