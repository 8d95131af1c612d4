import Mathlib
import Dossier.Proofs.Value.Replaced

/-!
# The two readers of a path

One reader follows a path to at most one value, through documents by key and through arrays by
position; the other one also fans out over arrays. They differ only where a path goes on behind an array
with a segment that is no position.

* `Value.exists_array_of_children`, **`Value.exists_array_of_descend?_eq_none`**: where the first reader
  stops and the second one goes on, there is such an array;
* `Value.exists_descend?_of_replace?`, **`Document.isSome_replaceAt?`**: values are put just where the
  first reader finds one; `Document.replaceAt?_self`: putting that one changes nothing;
* **`Document.readers_agree`**: what the readers have to do with each other, and with writing.
-/

namespace Dossier

namespace Value

variable {v w new : Value} {k : String} {p : Path}

theorem exists_array_of_children (h : v.child? k = none) (hne : v.children k ≠ []) :
    ∃ items, v = array items ∧ Numeral.index? k = none := by
  cases v
  case document fields =>
    have hfind : Entries.find? fields k = none := h
    rw [children, hfind] at hne
    exact absurd rfl hne
  case array items =>
    refine ⟨items, rfl, ?_⟩
    cases hindex : Numeral.index? k with
    | none => rfl
    | some index =>
      rw [child?, hindex, Option.bind_some] at h
      rw [children, hindex] at hne
      simp [h] at hne
  all_goals exact absurd rfl hne

/-- **Where the first reader finds nothing and the second one something**, the path leads to an array
and goes on with a segment that is no position. -/
theorem exists_array_of_descend?_eq_none (h : v.descend? p = none)
    (hne : p.foldl (fun reached segment => reached.flatMap (children segment)) [v] ≠ []) :
    ∃ front k back items, p = front ++ k :: back ∧ v.descend? front = some (array items) ∧
      Numeral.index? k = none := by
  induction p generalizing v with
  | nil => cases h
  | cons k p ih =>
    rw [List.foldl_cons, List.flatMap_singleton] at hne
    cases hchild : v.child? k with
    | some child =>
      rw [descend?, hchild, Option.bind_some] at h
      rw [children_of_child? hchild] at hne
      obtain ⟨front, l, back, items, rfl, hitems, hindex⟩ := ih h hne
      refine ⟨k :: front, l, back, items, rfl, ?_, hindex⟩
      rw [descend?, hchild, Option.bind_some, hitems]
    | none =>
      -- the first reader stops here, and the second one would too if the segment named nothing
      have hseveral : v.children k ≠ [] := by
        intro hnil
        rw [hnil, foldl_children_nil] at hne
        exact hne rfl
      obtain ⟨items, rfl, hindex⟩ := exists_array_of_children hchild hseveral
      exact ⟨[], k, p, items, rfl, rfl, hindex⟩

theorem exists_descend?_of_replace? (h : v.replace? p new = some w) :
    ∃ old, v.descend? p = some old := by
  induction p generalizing v w with
  | nil => exact ⟨v, rfl⟩
  | cons k p ih =>
    obtain ⟨child, hchild, h⟩ := Option.bind_eq_some_iff.mp h
    obtain ⟨child', hrest, -⟩ := Option.bind_eq_some_iff.mp h
    obtain ⟨old, hold⟩ := ih hrest
    exact ⟨old, by rw [descend?, hchild, Option.bind_some, hold]⟩

theorem replaceChild?_self (h : v.child? k = some w) : v.replaceChild? k w = some v := by
  cases v <;> try cases h
  case document fields =>
    have hfind : Entries.find? fields k = some w := h
    rw [replaceChild?, if_pos (Entries.contains_of_find? hfind), Entries.insert_of_find? hfind]
  case array items =>
    obtain ⟨index, hindex, hitem⟩ := Option.bind_eq_some_iff.mp h
    obtain ⟨hlt, rfl⟩ := List.getElem?_eq_some_iff.mp hitem
    simp only [replaceChild?, hindex, if_pos hlt, List.set_getElem_self]

theorem replace?_self (h : v.descend? p = some w) : v.replace? p w = some v := by
  induction p generalizing v with
  | nil => exact h.symm
  | cons k p ih =>
    obtain ⟨child, hchild, hrest⟩ := Option.bind_eq_some_iff.mp h
    rw [replace?, hchild, Option.bind_eq_bind, Option.bind_some, ih hrest, Option.bind_some,
      replaceChild?_self hchild]

end Value

namespace Document

variable {d : Document} {p : Path} {v : Value}

/-- **A value is put just where there is one.** -/
theorem isSome_replaceAt? (hp : p ≠ []) (d : Document) (new : Value) :
    (d.replaceAt? p new).isSome = (d.at? p).isSome := by
  rw [Bool.eq_iff_iff, Option.isSome_iff_exists, Option.isSome_iff_exists]
  constructor
  · rintro ⟨d', h⟩
    have hreplace : (Value.document d).replace? p new = some (.document d') := by
      rw [Value.replace?_document hp, h, Option.map_some]
    rw [at?_eq_descend? d hp]
    exact Value.exists_descend?_of_replace? hreplace
  · rintro ⟨old, h⟩
    exact exists_replaceAt? h new

theorem replaceAt?_self (h : d.at? p = some v) : d.replaceAt? p v = some d := by
  have hp := ne_nil_of_at? h
  rw [at?_eq_descend? d hp] at h
  have hself := Value.replace?_self h
  rw [Value.replace?_document hp] at hself
  obtain ⟨d', hd', heq⟩ := Option.map_eq_some_iff.mp hself
  rw [hd', Value.document.inj heq]

/-- **The readers of a path agree.** Where the first reader finds a value, the second one reaches just
that, and a longer path leads the second one on from there. Where the first reader finds nothing and the
second one something, the path leads to an array and goes on with a segment that is no position. A value
is put just where the first reader finds one: it is found there then, and the one that was there changes
nothing. -/
theorem readers_agree (d : Document) (path : String) :
    (∀ v, d.at? (Dotted.segments path) = some v →
      d.reach (Dotted.segments path) = [v] ∧
      ∀ rest, d.reach (Dotted.segments (path ++ "." ++ rest)) =
        (Dotted.segments rest).foldl
          (fun reached segment => reached.flatMap (Value.children segment)) [v]) ∧
    (d.at? (Dotted.segments path) = none → d.reach (Dotted.segments path) ≠ [] →
      ∃ front k back items, Dotted.segments path = front ++ k :: back ∧
        d.at? front = some (.array items) ∧ Numeral.index? k = none) ∧
    ∀ new, (d.replaceAt? (Dotted.segments path) new).isSome = (d.at? (Dotted.segments path)).isSome ∧
      (∀ d', d.replaceAt? (Dotted.segments path) new = some d' →
        d'.at? (Dotted.segments path) = some new) ∧
      (d.at? (Dotted.segments path) = some new →
        d.replaceAt? (Dotted.segments path) new = some d) := by
  have hp := Dotted.segments_ne_nil path
  refine ⟨fun v hv => ⟨reach_of_at? hv, fun rest => ?_⟩, fun hnone hreach => ?_, fun new => ?_⟩
  · rw [Dotted.segments_append_dot]
    exact reach_append_of_at? hv (Dotted.segments rest)
  · rw [at?_eq_descend? d hp] at hnone
    rw [reach_eq_foldl d hp] at hreach
    simp only [at?_eq_array_iff]
    exact Value.exists_array_of_descend?_eq_none hnone hreach
  · exact ⟨isSome_replaceAt? hp d new, fun d' => at?_replaceAt? hp, replaceAt?_self⟩

/-- The quantities of two lines, and the second line itself. -/
theorem readers_agree_lines :
    let line : Value := .document [("qty", .int32 9)]
    let d : Document := [("lines", .array [.document [("qty", .int32 1)], line])]
    (d.at? (Dotted.segments "lines.qty") = none ∧
      d.reach (Dotted.segments "lines.qty") = [.int32 1, .int32 9] ∧
      ∃ front k back items, Dotted.segments "lines.qty" = front ++ k :: back ∧
        d.at? front = some (.array items) ∧ Numeral.index? k = none) ∧
    d.at? (Dotted.segments "lines.1") = some line ∧
      d.reach (Dotted.segments "lines.1") = [line] ∧
      d.replaceAt? (Dotted.segments "lines.1") line = some d ∧
      ∃ d', d.replaceAt? (Dotted.segments "lines.1") .null = some d' ∧
        d'.at? (Dotted.segments "lines.1") = some .null := by
  intro line d
  obtain ⟨-, hfans, -⟩ := readers_agree d "lines.qty"
  obtain ⟨hfound, -, hput⟩ := readers_agree d "lines.1"
  have hreach : d.reach (Dotted.segments "lines.qty") = [.int32 1, .int32 9] := rfl
  have hline : d.at? (Dotted.segments "lines.1") = some line := rfl
  have hnull : d.replaceAt? (Dotted.segments "lines.1") .null =
      some [("lines", .array [.document [("qty", .int32 1)], .null])] := rfl
  refine ⟨⟨rfl, hreach, hfans rfl ?_⟩, hline, (hfound line hline).1, (hput line).2.2 hline,
    _, hnull, (hput .null).2.1 _ hnull⟩
  rw [hreach]
  exact List.cons_ne_nil _ _

end Document

end Dossier
