import Dossier.Value.Path

/-!
# What paths reach

One reader follows a path to at most one value, the other one fans out over arrays. They agree
wherever the first one arrives.

* **`Document.reach_of_at?`**: a path that leads to a value reaches just that value;
* **`Document.reach_append_of_at?`**: and going on from there reaches what the rest of the path does;
* `Value.foldl_children_nil`, `Value.foldl_children_of_missing`: where a path ends early;
* `Value.descend?_append`: reading along one path and then another;
* **`Path.Apart`**: neither path begins with the other.
-/

namespace Dossier

namespace Path

/-- Neither path begins with the other. -/
def Apart (p q : Path) : Prop := ¬ p <+: q ∧ ¬ q <+: p

instance (p q : Path) : Decidable (Apart p q) := inferInstanceAs (Decidable (_ ∧ _))

variable {p q : Path} {k l : String}

theorem Apart.symm (h : Apart p q) : Apart q p := ⟨h.2, h.1⟩

theorem not_apart_nil_left : ¬ Apart [] q := fun h => h.1 List.nil_prefix

theorem not_apart_nil_right : ¬ Apart p [] := fun h => h.2 List.nil_prefix

theorem apart_cons_cons : Apart (k :: p) (l :: q) ↔ k = l → Apart p q := by
  simp only [Apart, List.cons_prefix_cons, not_and]
  constructor
  · intro h e
    exact ⟨h.1 e, h.2 e.symm⟩
  · intro h
    exact ⟨fun e => (h e).1, fun e => (h e.symm).2⟩

end Path

namespace Value

variable {v w : Value} {p q : Path} {k : String}

theorem foldl_children_nil (q : Path) :
    q.foldl (fun reached segment => reached.flatMap (children segment)) ([] : List Value) = [] := by
  induction q with
  | nil => rfl
  | cons k q ih => rw [List.foldl_cons, List.flatMap_nil, ih]

theorem children_of_child? (h : v.child? k = some w) : v.children k = [w] := by
  cases v <;> try cases h
  case document fields =>
    have hfind : Entries.find? fields k = some w := h
    rw [children, hfind, Option.toList_some]
  case array items =>
    obtain ⟨index, hindex, hitem⟩ := Option.bind_eq_some_iff.mp h
    simp [children, hindex, hitem]

theorem descend?_append (v : Value) (p q : Path) :
    v.descend? (p ++ q) = (v.descend? p).bind (·.descend? q) := by
  induction p generalizing v with
  | nil => rfl
  | cons k rest ih =>
    rw [List.cons_append, descend?, descend?, Option.bind_assoc]
    exact congrArg _ (funext ih)

theorem foldl_children_of_descend? (h : v.descend? p = some w) :
    p.foldl (fun reached segment => reached.flatMap (children segment)) [v] = [w] := by
  induction p generalizing v with
  | nil => simpa [descend?] using h
  | cons k rest ih =>
    obtain ⟨child, hchild, hrest⟩ := Option.bind_eq_some_iff.mp h
    rw [List.foldl_cons, List.flatMap_singleton, children_of_child? hchild]
    exact ih hrest

theorem foldl_children_of_missing {items : List Value} {index : Nat} {rest : Path}
    (hindex : Numeral.index? k = some index) (h : items.length ≤ index) :
    (k :: rest).foldl (fun reached segment => reached.flatMap (children segment)) [array items] =
      [] := by
  have hchildren : (array items).children k = [] := by simp [children, hindex, h]
  rw [List.foldl_cons, List.flatMap_singleton, hchildren, foldl_children_nil]

end Value

namespace Document

variable {d : Document} {p q : Path} {w : Value}

theorem at?_eq_descend? (d : Document) {p : Path} (hp : p ≠ []) :
    d.at? p = (Value.document d).descend? p := by
  cases p with
  | nil => exact absurd rfl hp
  | cons k rest => rfl

theorem at?_eq_array_iff {items : List Value} :
    d.at? p = some (.array items) ↔ (Value.document d).descend? p = some (.array items) := by
  cases p with
  | nil => simp [at?, Value.descend?]
  | cons k rest => rfl

theorem reach_eq_foldl (d : Document) {q : Path} (h : q ≠ []) : d.reach q =
    q.foldl (fun reached segment => reached.flatMap (Value.children segment)) [.document d] := by
  cases q with
  | nil => exact absurd rfl h
  | cons k q => rw [reach, List.foldl_cons, List.flatMap_singleton, Value.children]

theorem ne_nil_of_at? (h : d.at? p = some w) : p ≠ [] := by
  rintro rfl
  cases h

/-- **Going on from a value** that a path leads to. -/
theorem reach_append_of_at? (h : d.at? p = some w) (q : Path) : d.reach (p ++ q) =
    q.foldl (fun reached segment => reached.flatMap (Value.children segment)) [w] := by
  have hp := ne_nil_of_at? h
  rw [at?_eq_descend? d hp] at h
  rw [reach_eq_foldl d (by simp [hp]), List.foldl_append, Value.foldl_children_of_descend? h]

/-- **A path that leads to a value reaches just that value.** -/
theorem reach_of_at? (h : d.at? p = some w) : d.reach p = [w] := by
  simpa using reach_append_of_at? h []

end Document

end Dossier
