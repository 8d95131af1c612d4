import Mathlib
import Dossier.Proofs.Value.Reached
import Dossier.Proofs.Value.Shape

/-!
# Paths through documents

Paths that lead through documents only, with no array on the way, are read alike by every reader of
paths.

* **`Value.within?`**: the value at a path through documents (`Document.at?_of_within?`,
  `Document.reach_of_within?`);
* `Value.Clear`: no other value than a document stands in the way of a path;
* **`Value.putWithin`**: the value with another one at a path, documents made on the way; lawful
  where the path is clear. It does not show on a path apart from that one
  (`Value.within?_putWithin_of_apart`).
-/

namespace Dossier

namespace Value

/-- The value at a path that leads through documents only. -/
def within? : Value → Path → Option Value
  | v, [] => some v
  | document fields, segment :: rest => (Entries.find? fields segment).bind (within? · rest)
  | _, _ :: _ => none

/-- Whether a path leads through documents only, as far as there is anything on it. -/
def Clear : Value → Path → Prop
  | _, [] => True
  | document fields, segment :: rest =>
    ∀ child, Entries.find? fields segment = some child → Clear child rest
  | _, _ :: _ => False

/-- The value with `new` at a path; missing documents on the way are made, and a path that is not
clear changes nothing. -/
def putWithin : Value → Path → Value → Value
  | _, [], new => new
  | document fields, segment :: rest, new =>
    document (Entries.insert fields segment
      (putWithin ((Entries.find? fields segment).getD (document [])) rest new))
  | v, _ :: _, _ => v

/-! ## Reading and putting -/

@[simp] theorem within?_nil (v : Value) : v.within? [] = some v := by cases v <;> rfl

@[simp] theorem clear_nil (v : Value) : v.Clear [] := by cases v <;> trivial

@[simp] theorem putWithin_nil (v new : Value) : v.putWithin [] new = new := by cases v <;> rfl

theorem exists_fields_of_within? {v w : Value} {k : String} {rest : Path}
    (h : v.within? (k :: rest) = some w) :
    ∃ fields child, v = document fields ∧ Entries.find? fields k = some child ∧
      child.within? rest = some w := by
  cases v
  case document fields =>
    obtain ⟨child, hchild, hw⟩ := Option.bind_eq_some_iff.mp h
    exact ⟨fields, child, rfl, hchild, hw⟩
  all_goals cases h

theorem Clear.exists_fields {v : Value} {k : String} {rest : Path} (h : v.Clear (k :: rest)) :
    ∃ fields, v = document fields ∧
      ∀ child, Entries.find? fields k = some child → child.Clear rest := by
  cases v
  case document fields => exact ⟨fields, rfl, h⟩
  all_goals cases h

theorem clear_empty (p : Path) : (document []).Clear p := by
  cases p with
  | nil => trivial
  | cons k rest => exact nofun

theorem clear_of_within? {v w : Value} {p : Path} (h : v.within? p = some w) : v.Clear p := by
  induction p generalizing v with
  | nil => exact clear_nil v
  | cons k rest ih =>
    obtain ⟨fields, child, rfl, hchild, hw⟩ := exists_fields_of_within? h
    intro other hother
    rw [hchild] at hother
    cases hother
    exact ih hw

theorem Clear.getD {fields : Document} {k : String} {rest : Path}
    (h : ∀ child, Entries.find? fields k = some child → child.Clear rest) :
    ((Entries.find? fields k).getD (document [])).Clear rest := by
  cases hk : Entries.find? fields k with
  | none => exact clear_empty rest
  | some child => exact h child hk

theorem within?_putWithin {v : Value} {p : Path} (h : v.Clear p) (new : Value) :
    (v.putWithin p new).within? p = some new := by
  induction p generalizing v with
  | nil => simp
  | cons k rest ih =>
    obtain ⟨fields, rfl, hchild⟩ := h.exists_fields
    rw [putWithin, within?, Entries.find?_insert_self, Option.bind_some]
    exact ih (Clear.getD hchild)

theorem within?_append (v : Value) (p q : Path) :
    v.within? (p ++ q) = (v.within? p).bind (·.within? q) := by
  induction p generalizing v with
  | nil => simp
  | cons k rest ih =>
    cases v
    case document fields =>
      rw [List.cons_append, within?, within?, Option.bind_assoc]
      exact congrArg _ (funext ih)
    all_goals rfl

theorem putWithin_eq_self {v w : Value} {p : Path} (h : v.within? p = some w) :
    v.putWithin p w = v := by
  induction p generalizing v with
  | nil => simpa using h.symm
  | cons k rest ih =>
    obtain ⟨fields, child, rfl, hchild, hw⟩ := exists_fields_of_within? h
    rw [putWithin, hchild, Option.getD_some, ih hw, Entries.insert_of_find? hchild]

/-! ## Paths apart -/

theorem within?_empty {p : Path} (h : p ≠ []) : (document []).within? p = none := by
  cases p with
  | nil => exact absurd rfl h
  | cons k rest => rfl

theorem within?_getD_of_ne_nil (fields : Document) (k : String) {rest : Path} (h : rest ≠ []) :
    ((Entries.find? fields k).getD (document [])).within? rest =
      (document fields).within? (k :: rest) := by
  rw [within?]
  cases Entries.find? fields k with
  | none => exact within?_empty h
  | some child => rfl

theorem within?_putWithin_of_apart (v new : Value) {p q : Path} (h : Path.Apart p q) :
    (v.putWithin p new).within? q = v.within? q := by
  induction p generalizing v q with
  | nil => exact absurd h Path.not_apart_nil_left
  | cons k p ih =>
    cases q with
    | nil => exact absurd h Path.not_apart_nil_right
    | cons l q =>
      rw [Path.apart_cons_cons] at h
      cases v
      case document fields =>
        by_cases e : k = l
        · subst e
          have hq : q ≠ [] := by rintro rfl; exact Path.not_apart_nil_right (h rfl)
          rw [putWithin, within?, Entries.find?_insert_self, Option.bind_some, ih _ (h rfl),
            within?_getD_of_ne_nil _ _ hq]
        · rw [putWithin, within?, Entries.find?_insert_of_ne _ e, within?]
      all_goals rfl

theorem Clear.putWithin {v : Value} (new : Value) {p q : Path} (hq : v.Clear q)
    (h : Path.Apart p q) : (v.putWithin p new).Clear q := by
  induction p generalizing v q with
  | nil => exact absurd h Path.not_apart_nil_left
  | cons k p ih =>
    cases q with
    | nil => exact clear_nil _
    | cons l q =>
      rw [Path.apart_cons_cons] at h
      obtain ⟨fields, rfl, hchild⟩ := hq.exists_fields
      intro child hfind
      by_cases e : k = l
      · subst e
        rw [Entries.find?_insert_self] at hfind
        cases hfind
        exact ih (Clear.getD hchild) (h rfl)
      · rw [Entries.find?_insert_of_ne _ e] at hfind
        exact hchild child hfind

theorem WellFormed.putWithin {v new : Value} (p : Path) (hv : v.WellFormed) (hn : new.WellFormed) :
    (v.putWithin p new).WellFormed := by
  induction p generalizing v with
  | nil => simpa using hn
  | cons k rest ih =>
    cases v
    case document fields =>
      obtain ⟨hd, hf⟩ := wellFormed_document.mp hv
      have hchild : ((Entries.find? fields k).getD (document [])).WellFormed := by
        cases hk : Entries.find? fields k with
        | none => simp [Entries.Distinct, Entries.keys]
        | some child => exact hf _ (Entries.mem_of_find? hk)
      refine wellFormed_document.mpr ⟨Entries.distinct_insert hd _ _, fun f hm => ?_⟩
      rcases Entries.mem_insert hm with rfl | hm
      · exact ih hchild
      · exact hf f hm
    all_goals exact hv

theorem descend?_of_within? {v w : Value} {p : Path} (h : v.within? p = some w) :
    v.descend? p = some w := by
  induction p generalizing v with
  | nil => simpa [descend?] using h
  | cons k rest ih =>
    obtain ⟨fields, child, rfl, hchild, hw⟩ := exists_fields_of_within? h
    rw [descend?, child?, hchild, Option.bind_some]
    exact ih hw

end Value

/-! ## Other readers of paths -/

namespace Document

variable {d : Document} {p : Path} {w : Value}

theorem at?_of_within? (hp : p ≠ []) (h : (Value.document d).within? p = some w) :
    d.at? p = some w := by
  cases p with
  | nil => exact absurd rfl hp
  | cons k rest =>
    obtain ⟨child, hchild, hw⟩ := Option.bind_eq_some_iff.mp h
    rw [at?, hchild, Option.bind_some]
    exact Value.descend?_of_within? hw

theorem reach_of_within? (hp : p ≠ []) (h : (Value.document d).within? p = some w) :
    d.reach p = [w] := reach_of_at? (at?_of_within? hp h)

end Document

end Dossier
