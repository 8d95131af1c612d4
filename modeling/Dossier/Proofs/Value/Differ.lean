import Mathlib
import Dossier.Proofs.Value.Reflexive

/-!
# Values that differ

* `Value.same_array_of_length`, `Value.same_array_of_getElem?`: arrays that differ in their length or
  at one position are not the same;
* `Value.same_document_of_length`, `Value.same_document_of_find?`: so for documents and keys;
* `Entries.Covered`: whether all entries have related ones elsewhere (`Entries.Covered.rel_find?`);
* **`Value.rel_find?_of_same`**: documents that are the same are so under every key.
-/

namespace Dossier

namespace Entries

variable {α : Type} {R : α → α → Prop} {entries fs gs : Entries α}

theorem length_erase {key : String} (h : entries.contains key = true) :
    (entries.erase key).length + 1 = entries.length := by
  induction entries with
  | nil => cases h
  | cons entry rest ih =>
    obtain ⟨k, v⟩ := entry
    rw [contains, find?_cons] at h
    rw [erase]
    split
    · rfl
    · rename_i hk
      rw [if_neg hk] at h
      rw [List.length_cons, ih h, List.length_cons]

theorem length_insert_of_find?_eq_none {key : String} (h : entries.find? key = none) (v : α) :
    (entries.insert key v).length = entries.length + 1 := by
  rw [insert_of_not_mem (find?_eq_none_iff.mp h), List.length_append, List.length_singleton]

/-- Whether every entry of `fs` has a related one in `gs`. -/
def Covered (R : α → α → Prop) (fs gs : Entries α) : Prop :=
  ∀ f ∈ fs, ∃ w, gs.find? f.1 = some w ∧ R f.2 w

theorem Covered.rel_find? (h : Covered R fs gs) (hd : fs.Distinct)
    (hlength : fs.length = gs.length) (k : String) : Option.Rel R (fs.find? k) (gs.find? k) := by
  cases hf : fs.find? k with
  | some v =>
    obtain ⟨w, hw, hrel⟩ := h _ (mem_of_find? hf)
    rw [hw]
    exact .some hrel
  | none =>
    cases hg : gs.find? k with
    | none => exact .none
    | some w =>
      -- One key more than those of `fs`, all of which `gs` has, is one too many.
      have hk : k ∉ fs.keys := find?_eq_none_iff.mp hf
      have hsub : k :: fs.keys ⊆ gs.keys := by
        refine List.cons_subset.mpr ⟨List.mem_map_of_mem (mem_of_find? hg), fun l hl => ?_⟩
        obtain ⟨f, hmem, rfl⟩ := List.mem_map.mp hl
        obtain ⟨x, hx, -⟩ := h f hmem
        exact List.mem_map.mpr ⟨_, mem_of_find? hx, rfl⟩
      have hle := ((List.nodup_cons.mpr ⟨hk, hd⟩).subperm hsub).length_le
      simp only [keys, List.length_cons, List.length_map] at hle
      omega

end Entries

namespace Value

theorem sameItems_iff {xs ys : List Value} :
    sameItems xs ys = true ↔ List.Forall₂ (fun x y => x.same y = true) xs ys := by
  induction xs generalizing ys with
  | nil =>
    cases ys with
    | nil => exact iff_of_true rfl .nil
    | cons y ys => exact iff_of_false (fun h => by cases h) (fun h => by cases h)
  | cons x xs ih =>
    cases ys with
    | nil => exact iff_of_false (fun h => by cases h) (fun h => by cases h)
    | cons y ys => rw [sameItems_cons, Bool.and_eq_true, ih, List.forall₂_cons]

theorem same_array_of_length {xs ys : List Value} (h : xs.length ≠ ys.length) :
    (array xs).same (array ys) = false := by
  rw [same_array, Bool.eq_false_iff, ne_eq, sameItems_iff]
  exact fun hsame => h hsame.length_eq

theorem same_array_of_getElem? {xs ys : List Value} {i : Nat} {x y : Value} (hx : xs[i]? = some x)
    (hy : ys[i]? = some y) (h : x.same y = false) : (array xs).same (array ys) = false := by
  rw [same_array, Bool.eq_false_iff, ne_eq, sameItems_iff]
  intro hsame
  obtain ⟨hi, rfl⟩ := List.getElem?_eq_some_iff.mp hx
  obtain ⟨hj, rfl⟩ := List.getElem?_eq_some_iff.mp hy
  have hxy : xs[i].same ys[i] = true := (List.forall₂_iff_get.mp hsame).2 i hi hj
  rw [h] at hxy
  cases hxy

theorem same_document_of_length {fs gs : Document} (h : fs.length ≠ gs.length) :
    (document fs).same (document gs) = false := by
  rw [same_document, beq_eq_false_iff_ne.mpr h, Bool.false_and]

theorem same_document_of_find? {fs gs : Document} {k : String} {x : Value}
    (hx : fs.find? k = some x) (h : ∀ y, gs.find? k = some y → x.same y = false) :
    (document fs).same (document gs) = false := by
  rw [same_document, Bool.and_eq_false_iff, Bool.eq_false_iff (b := sameFields fs gs)]
  refine .inr fun hsame => ?_
  obtain ⟨y, hy, hxy⟩ := sameFields_iff.mp hsame _ (Entries.mem_of_find? hx)
  rw [h y hy] at hxy
  cases hxy

theorem rel_find?_of_same {fs gs : Document} (hd : fs.Distinct)
    (h : (document fs).same (document gs) = true) (k : String) :
    Option.Rel (fun v w => v.same w = true) (fs.find? k) (gs.find? k) := by
  rw [same_document, Bool.and_eq_true, beq_iff_eq, sameFields_iff] at h
  have hcovered : Entries.Covered (fun v w => v.same w = true) fs gs := h.2
  exact hcovered.rel_find? hd h.1 k

end Value

end Dossier
