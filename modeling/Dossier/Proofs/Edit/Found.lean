import Mathlib
import Dossier.Proofs.Edit.Slots

/-!
# Finding what was set

A path that is written to makes the documents that it lacks, but no elements of arrays: where it goes
on in a position that an array does not have, nothing is written, and the edit succeeds all the same.

* **`Document.Skips`**: such paths;
* `Value.edit_of_skips`, `Value.descend?_edit_assign`: what setting a value does on such a path, and
  on any other one;
* **`Query.holds_equals_assigned_iff`**: a filter finds what was set iff the path is not skipped, or
  the value is null.
-/

namespace Dossier

/-! ## Skipped paths -/

/-- Whether a path leads to an array and goes on in a position that the array does not have. -/
def Value.Skips (v : Value) (p : Path) : Prop :=
  ∃ front key back items index, p = front ++ key :: back ∧ back ≠ [] ∧
    v.descend? front = some (.array items) ∧ Numeral.index? key = some index ∧
    items.length ≤ index

/-- Whether a path leads to an array of a document and goes on in a position that the array does not
have. -/
def Document.Skips (d : Document) (p : Path) : Prop :=
  ∃ front key back items index, p = front ++ key :: back ∧ back ≠ [] ∧
    d.at? front = some (.array items) ∧ Numeral.index? key = some index ∧ items.length ≤ index

theorem Document.skips_iff {d : Document} {p : Path} : d.Skips p ↔ (Value.document d).Skips p := by
  simp only [Skips, Value.Skips, at?_eq_array_iff]

namespace Value

variable {v w new : Value} {k : String} {p path : Path} {scope : Scope} {u : Update}

theorem skips_cons : v.Skips (k :: p) ↔
    (p ≠ [] ∧ ∃ items index, v = array items ∧ Numeral.index? k = some index ∧
      items.length ≤ index) ∨ ∃ child, v.child? k = some child ∧ child.Skips p := by
  constructor
  · rintro ⟨front, key, back, items, index, hp, hback, hitems, hindex, hle⟩
    cases front with
    | nil =>
      cases hp
      exact .inl ⟨hback, items, index, Option.some.inj hitems, hindex, hle⟩
    | cons l front =>
      cases hp
      obtain ⟨child, hchild, hitems⟩ := Option.bind_eq_some_iff.mp hitems
      exact .inr ⟨child, hchild, front, key, back, items, index, rfl, hback, hitems, hindex, hle⟩
  · rintro (⟨hp, items, index, rfl, hindex, hle⟩ | ⟨child, hchild, front, key, back, items, index,
      rfl, hback, hitems, hindex, hle⟩)
    · exact ⟨[], k, p, items, index, rfl, hp, rfl, hindex, hle⟩
    · refine ⟨k :: front, key, back, items, index, rfl, hback, ?_, hindex, hle⟩
      rw [descend?, hchild, Option.bind_some, hitems]

theorem not_skips_nil : ¬ v.Skips [] := by
  rintro ⟨front, key, back, items, index, hp, -⟩
  exact absurd hp.symm (by simp)

theorem ne_nil_of_skips_cons (h : v.Skips (k :: p)) : p ≠ [] := by
  rintro rfl
  rcases skips_cons.mp h with ⟨h, -⟩ | ⟨child, -, h⟩
  · exact h rfl
  · exact not_skips_nil h

/-! ## Setting a value -/

/-- **On a skipped path** nothing is written. -/
theorem edit_of_skips {creates : Bool} {act : Value → Slot → Except UpdateError (Value × Bool)}
    (h : v.Skips p) (path : Path) : v.edit scope creates act (p.map .key) path = .ok (v, false) := by
  induction p generalizing v path with
  | nil => exact absurd h not_skips_nil
  | cons k p ih =>
    have hp : p.map Step.key ≠ [] := by simpa using ne_nil_of_skips_cons h
    rw [List.map_cons]
    rcases skips_cons.mp h with ⟨-, items, index, rfl, hindex, hle⟩ | ⟨child, hchild, hskips⟩
    · have hslots : scope.slots path (.key k) (array items) = .ok [.index index] := by
        rw [Scope.slots, hindex]
      have henter : (array items).enter? creates (.index index) = .ok none := by
        rw [enter?, List.getElem?_eq_none hle]
      rw [edit_cons hslots hp, henter]
      rfl
    · obtain ⟨slot, hslots, hslot⟩ := exists_slot_of_child? scope path hchild
      rw [edit_cons hslots hp, enter?_of_inSlot? hslot]
      simp only [bind, Except.bind, ih hskips, put_of_inSlot? hslot]
      rfl

theorem skips_of_enter?_none {slot : Slot} (hslots : scope.slots path (.key k) v = .ok [slot])
    (hp : p ≠ []) (h : v.enter? true slot = .ok none) : v.Skips (k :: p) := by
  obtain ⟨items, index, rfl, rfl, hle⟩ := enter?_eq_none h
  exact skips_cons.mpr (.inl ⟨hp, items, index, rfl, index?_of_slots hslots, hle⟩)

/-- What is entered is skipped no further: a document that was made has no arrays. -/
theorem not_skips_of_enter? {slot : Slot} {child : Value}
    (hslots : scope.slots path (.key k) v = .ok [slot]) (hp : p ≠ []) (hskips : ¬ v.Skips (k :: p))
    (h : v.enter? true slot = .ok (some child)) : ¬ child.Skips p := by
  intro hskip
  rcases enter?_eq_some h with hin | ⟨-, -, rfl⟩
  · rw [inSlot?_eq_child? hslots] at hin
    exact hskips (skips_cons.mpr (.inr ⟨child, hin, hskip⟩))
  · obtain ⟨l, rest, rfl⟩ := List.exists_cons_of_ne_nil hp
    rcases skips_cons.mp hskip with ⟨-, items, index, hitems, -⟩ | ⟨_, hnone, -⟩
    · cases hitems
    · cases hnone

theorem inSlot?_act_assign {slot : Slot} {changed : Bool} (hu : u.change = .assign new)
    (h : u.act v slot = .ok (w, changed)) :
    ∃ x, w.inSlot? slot = some x ∧ (x = new ∨ x.same new = true) := by
  have hact : u.act v slot = v.perform slot (.fill new) := by
    rw [Update.act, hu]
    rfl
  rw [hact] at h
  obtain ⟨-, hx⟩ | ⟨-, rfl, x, hx, hsame⟩ := perform_fill_cases h
  · exact ⟨new, hx, .inl rfl⟩
  · exact ⟨x, hx, .inr hsame⟩

/-- **On any other path** the value is found afterwards, or what was the same before. -/
theorem descend?_edit_assign {changed : Bool} (hu : u.change = .assign new)
    (hp : p ≠ []) (hskips : ¬ v.Skips p)
    (h : v.edit scope true u.act (p.map .key) path = .ok (w, changed)) :
    ∃ x, w.descend? p = some x ∧ (x = new ∨ x.same new = true) := by
  induction p generalizing v w changed path with
  | nil => exact absurd rfl hp
  | cons k p ih =>
    rw [List.map_cons] at h
    cases hslots : scope.slots path (.key k) v with
    | error cause =>
      rw [edit, hslots] at h
      cases h
    | ok slots =>
      obtain ⟨slot, rfl, -⟩ := Scope.slots_key_cases hslots
      -- the kind stays, so the slot is that of the child `k` before and after
      have hchild (hkind : w.kind = v.kind) : w.child? k = w.inSlot? slot :=
        (inSlot?_eq_child? ((slots_key_of_kind hkind).trans hslots)).symm
      by_cases hnil : p = []
      · subst hnil
        rw [List.map_nil, edit_last hslots] at h
        obtain ⟨x, hx, hnew⟩ := inSlot?_act_assign hu h
        refine ⟨x, ?_, hnew⟩
        rw [descend?, hchild (u.honest_act v slot _ h).kind, hx]
        rfl
      · obtain ⟨henter, -⟩ | ⟨child, child', henter, hedit, hput⟩ :=
          edit_cons_cases hslots (by simpa using hnil) h
        · exact absurd (skips_of_enter?_none hslots hnil henter) hskips
        · obtain ⟨x, hx, hnew⟩ := ih hnil (not_skips_of_enter? hslots hnil hskips henter) hedit
          refine ⟨x, ?_, hnew⟩
          rw [descend?, hchild (kind_put hput), inSlot?_put hput, Option.bind_some, hx]

end Value

/-! ## Finding it -/

namespace Document

variable {d : Document} {p : Path} {v w : Value}

theorem reach_of_skips (h : d.Skips p) : d.reach p = [] := by
  obtain ⟨front, key, back, items, index, rfl, -, hitems, hindex, hle⟩ := h
  rw [reach_append_of_at? hitems, Value.foldl_children_of_missing hindex hle]

theorem equalsAt_of_reach_eq_nil (h : d.reach p = []) (v : Value) :
    d.equalsAt p v = true ↔ v = .null := by
  have hcandidates : d.candidates p = [] := by rw [candidates, h, List.flatMap_nil]
  unfold equalsAt
  rw [h, hcandidates]
  cases v <;> simp

theorem equalsAt_of_at? (h : d.at? p = some w) (halike : w.alike v = true) :
    d.equalsAt p v = true := by
  have hmem : w ∈ d.candidates p := by simp [candidates, reach_of_at? h]
  unfold equalsAt
  rw [Bool.or_eq_true]
  exact .inr (List.any_eq_true.mpr ⟨w, hmem, halike⟩)

end Document

namespace Query

variable {q : Query} {field : String} {v : Value} {d d' : Document} {changed : Bool}

/-- **What is set can be found**, where it is set. If the update of a plain path succeeds, a filter by
the value holds afterwards iff the path is not skipped, or the value is null. On a skipped path the
document stays as it is; on any other one it has the value there, or what was the same before. -/
theorem holds_equals_assigned_iff (hq : q.updates = [⟨field, .assign v⟩])
    (hplain : Path.Plain (Dotted.segments field)) (hw : v.WellFormed) (hn : v.NaNFree)
    (h : q.edit d = .ok (d', changed)) :
    ((Condition.compare field .equals v).holds d' = true ↔
        ¬ d.Skips (Dotted.segments field) ∨ v = .null) ∧
      (d.Skips (Dotted.segments field) → d' = d ∧ changed = false) ∧
      (¬ d.Skips (Dotted.segments field) →
        ∃ x, d'.at? (Dotted.segments field) = some x ∧ (x = v ∨ x.same v = true)) := by
  rw [edit_single_eq_ok hq, Update.apply_eq, Step.ofPath, hplain.map_ofSegment] at h
  have hskipped (hskips : d.Skips (Dotted.segments field)) : d' = d ∧ changed = false := by
    rw [Value.edit_of_skips (Document.skips_iff.mp hskips)] at h
    cases h
    exact ⟨rfl, rfl⟩
  have hset (hskips : ¬ d.Skips (Dotted.segments field)) :
      ∃ x, d'.at? (Dotted.segments field) = some x ∧ (x = v ∨ x.same v = true) := by
    rw [Document.skips_iff] at hskips
    rw [Document.at?_eq_descend? _ (Dotted.segments_ne_nil field)]
    exact Value.descend?_edit_assign rfl (Dotted.segments_ne_nil field) hskips h
  refine ⟨?_, hskipped, hset⟩
  rw [Condition.holds, Document.compareAt]
  by_cases hskips : d.Skips (Dotted.segments field)
  · rw [(hskipped hskips).1, Document.equalsAt_of_reach_eq_nil (Document.reach_of_skips hskips)]
    simp [hskips]
  · obtain ⟨x, hx, hsame⟩ := hset hskips
    have halike : x.alike v = true := by
      rcases hsame with rfl | hsame
      · exact Value.alike_self hw hn
      · exact Value.alike_of_same hsame
    simp [hskips, Document.equalsAt_of_at? hx halike]

/-- A document with a list inside a list of marks. -/
def nestedMarks : Document :=
  [("_id", .int32 1), ("marks", .array [.null, .array [.int32 3]])]

/-- The inner list is filled up with a null, and the value is found behind it. -/
theorem holds_equals_assigned_padded :
    Path.Plain (Dotted.segments "marks.1.2") ∧ (Value.string "late").WellFormed ∧
      (Value.string "late").NaNFree ∧ ∃ d',
        ({ updates := [⟨"marks.1.2", .assign (.string "late")⟩] } : Query).edit nestedMarks =
          .ok (d', true) ∧
        (Condition.compare "marks.1.2" .equals (.string "late")).holds d' = true := by
  have hplain : Path.Plain (Dotted.segments "marks.1.2") := by decide
  have hwell : (Value.string "late").WellFormed := Value.wellFormed_of_isAtom rfl
  have hnan : (Value.string "late").NaNFree := (Value.everywhere_of_isAtom rfl).mpr trivial
  have hedit : ({ updates := [⟨"marks.1.2", .assign (.string "late")⟩] } : Query).edit nestedMarks =
      .ok ([("_id", .int32 1),
        ("marks", .array [.null, .array [.int32 3, .null, .string "late"]])], true) := rfl
  obtain ⟨hholds, hskipped, -⟩ := holds_equals_assigned_iff rfl hplain hwell hnan hedit
  have hskips : ¬ nestedMarks.Skips (Dotted.segments "marks.1.2") := by
    intro h
    cases (hskipped h).2
  exact ⟨hplain, hwell, hnan, _, hedit, hholds.mpr (.inl hskips)⟩

/-- A path that goes on behind the end of the inner list: setting a value succeeds, changes nothing,
and the value is not found. -/
theorem not_holds_equals_assigned :
    ({ updates := [⟨"marks.1.2.text", .assign (.string "late")⟩] } : Query).edit nestedMarks =
        .ok (nestedMarks, false) ∧
      (Condition.compare "marks.1.2.text" .equals (.string "late")).holds nestedMarks = false :=
  ⟨rfl, rfl⟩

end Query

end Dossier
