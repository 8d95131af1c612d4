import Dossier.Proofs.Value.Reached

/-!
# Values put where a path leads

* `Value.child?_replaceChild?`, **`Value.descend?_replace?`**: what is put at a path is found there;
* `Value.exists_replace?`, `Document.exists_replaceAt?`: it can be put wherever a path leads;
* `Value.replace?_document`: inside a document, and **`Document.at?_replaceAt?`**.
-/

namespace Dossier

namespace Value

variable {v w new : Value} {k : String} {p : Path}

theorem child?_replaceChild? (h : v.replaceChild? k new = some w) : w.child? k = some new := by
  cases v <;> try cases h
  case document fields =>
    rw [replaceChild?] at h
    split at h <;> cases h
    exact Entries.find?_insert_self fields k new
  case array items =>
    rw [replaceChild?] at h
    split at h
    case h_1 index hindex =>
      split at h <;> cases h
      case isTrue.refl hlt => rw [child?, hindex, Option.bind_some, List.getElem?_set_self hlt]
    case h_2 => cases h

/-- **What is put at a path** is found there. -/
theorem descend?_replace? (h : v.replace? p new = some w) : w.descend? p = some new := by
  induction p generalizing v w with
  | nil => exact h.symm
  | cons k rest ih =>
    obtain ⟨child, -, h⟩ := Option.bind_eq_some_iff.mp h
    obtain ⟨child', hrest, h⟩ := Option.bind_eq_some_iff.mp h
    rw [descend?, child?_replaceChild? h, Option.bind_some, ih hrest]

theorem exists_replaceChild? (h : v.child? k = some w) (new : Value) :
    ∃ v', v.replaceChild? k new = some v' := by
  cases v <;> try cases h
  case document fields =>
    have hfind : Entries.find? fields k = some w := h
    exact ⟨_, if_pos (Entries.contains_of_find? hfind)⟩
  case array items =>
    obtain ⟨index, hindex, hitem⟩ := Option.bind_eq_some_iff.mp h
    have hlt : index < items.length := (List.getElem?_eq_some_iff.mp hitem).1
    refine ⟨array (items.set index new), ?_⟩
    rw [replaceChild?, hindex]
    exact if_pos hlt

theorem exists_replace? (h : v.descend? p = some w) (new : Value) :
    ∃ v', v.replace? p new = some v' := by
  induction p generalizing v with
  | nil => exact ⟨new, rfl⟩
  | cons k rest ih =>
    obtain ⟨child, hchild, hrest⟩ := Option.bind_eq_some_iff.mp h
    obtain ⟨child', hchild'⟩ := ih hrest
    obtain ⟨v', hv'⟩ := exists_replaceChild? hchild child'
    refine ⟨v', ?_⟩
    rw [replace?, hchild, Option.bind_eq_bind, Option.bind_some, hchild']
    exact hv'

theorem replace?_document {d : Document} (hp : p ≠ []) :
    (document d).replace? p new = (d.replaceAt? p new).map .document := by
  cases p with
  | nil => exact absurd rfl hp
  | cons k rest =>
    rw [replace?, Document.replaceAt?, child?]
    cases hchild : Entries.find? d k with
    | none => rfl
    | some child =>
      have hcontains := Entries.contains_of_find? hchild
      cases hrest : child.replace? rest new with
      | none => simp [hrest]
      | some child' => simp [hrest, replaceChild?, hcontains]

end Value

namespace Document

variable {d d' : Document} {p : Path} {w new : Value}

theorem exists_replaceAt? (h : d.at? p = some w) (new : Value) :
    ∃ d', d.replaceAt? p new = some d' := by
  have hp := ne_nil_of_at? h
  rw [at?_eq_descend? d hp] at h
  obtain ⟨v', hv'⟩ := Value.exists_replace? h new
  rw [Value.replace?_document hp] at hv'
  obtain ⟨d', hd', -⟩ := Option.map_eq_some_iff.mp hv'
  exact ⟨d', hd'⟩

theorem at?_replaceAt? (hp : p ≠ []) (h : d.replaceAt? p new = some d') : d'.at? p = some new := by
  have hreplace : (Value.document d).replace? p new = some (.document d') := by
    rw [Value.replace?_document hp, h, Option.map_some]
  rw [at?_eq_descend? d' hp]
  exact Value.descend?_replace? hreplace

end Document

end Dossier
