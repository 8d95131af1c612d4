import Mathlib
import Dossier.Proofs.Value.Within

/-!
# Parts of values

A part of a document is made by putting some of its values, found through documents only, where they
were.

* **`Value.PartOf`**: a value itself, or a document of parts of another one's fields;
* `Value.PartOf.putWithin`: putting more of the whole into a part leaves a part, and
  `Value.within?_putWithin_of_partOf` keeps what is already there;
* **`Value.partAt`**: the part that some paths lead to. It holds what the whole holds at these paths
  (`Value.within?_partAt`) and is determined by it (`Value.partAt_eq_iff`).
-/

namespace Dossier

namespace Value

/-- Whether a value is a part of another one: that value, or a document of parts of its fields. -/
inductive PartOf : Value → Value → Prop
  | refl (v : Value) : PartOf v v
  | document {fields whole : List (String × Value)}
      (hkeys : ∀ k v, Entries.find? fields k = some v → ∃ w, Entries.find? whole k = some w)
      (hparts : ∀ k v w, Entries.find? fields k = some v → Entries.find? whole k = some w →
        PartOf v w) : PartOf (document fields) (document whole)

variable {s t v w : Value} {p q : Path}

theorem PartOf.exists_fields {whole : Document} (h : PartOf t (.document whole)) :
    ∃ fields : Document, t = .document fields ∧ ∀ k v, fields.find? k = some v →
      ∃ w, whole.find? k = some w ∧ PartOf v w := by
  cases h with
  | refl => exact ⟨whole, rfl, fun k v hv => ⟨v, hv, .refl v⟩⟩
  | document hkeys hparts =>
    refine ⟨_, rfl, fun k v hv => ?_⟩
    obtain ⟨w, hw⟩ := hkeys k v hv
    exact ⟨w, hw, hparts k v w hv hw⟩

theorem PartOf.of_fields {fields whole : Document}
    (h : ∀ k v, fields.find? k = some v → ∃ w, whole.find? k = some w ∧ PartOf v w) :
    PartOf (.document fields) (.document whole) := by
  refine .document (fun k v hv => ?_) fun k v w hv hw => ?_
  · obtain ⟨w, hw, -⟩ := h k v hv
    exact ⟨w, hw⟩
  · obtain ⟨w', hw', hpart⟩ := h k v hv
    obtain rfl := Option.some.inj (hw.symm.trans hw')
    exact hpart

theorem PartOf.empty (whole : Document) : PartOf (.document []) (.document whole) :=
  .of_fields nofun

theorem PartOf.within? (h : PartOf t s) (hv : t.within? p = some v) :
    ∃ w, s.within? p = some w ∧ PartOf v w := by
  induction p generalizing s t with
  | nil =>
    obtain rfl : t = v := by simpa using hv
    exact ⟨s, within?_nil s, h⟩
  | cons k rest ih =>
    obtain ⟨fields, child, rfl, hchild, hv⟩ := exists_fields_of_within? hv
    cases h with
    | refl =>
      refine ⟨v, ?_, .refl v⟩
      rw [Value.within?, hchild, Option.bind_some, hv]
    | document hkeys hparts =>
      obtain ⟨w, hw⟩ := hkeys k child hchild
      rw [Value.within?, hw, Option.bind_some]
      exact ih (hparts k child w hchild hw) hv

theorem PartOf.within?_eq_none (h : PartOf t s) (hs : s.within? p = none) : t.within? p = none := by
  cases ht : t.within? p with
  | none => rfl
  | some v =>
    obtain ⟨w, hw, -⟩ := h.within? ht
    rw [hs] at hw
    cases hw

theorem PartOf.clear (h : PartOf t s) (hw : s.within? p = some w) : t.Clear p := by
  induction p generalizing s t with
  | nil => exact clear_nil t
  | cons k rest ih =>
    obtain ⟨whole, child, rfl, hchild, hw⟩ := exists_fields_of_within? hw
    obtain ⟨fields, rfl, hfields⟩ := h.exists_fields
    intro part hpart
    obtain ⟨child', hchild', hpartOf⟩ := hfields k part hpart
    obtain rfl := Option.some.inj (hchild.symm.trans hchild')
    exact ih hpartOf hw

theorem PartOf.getD {fields whole : Document} {k : String} {child : Value} {rest : Path}
    (h : ∀ k v, fields.find? k = some v → ∃ w, whole.find? k = some w ∧ PartOf v w)
    (hchild : whole.find? k = some child) (hrest : rest ≠ []) (hw : child.within? rest = some w) :
    PartOf ((fields.find? k).getD (.document [])) child := by
  cases hfind : fields.find? k with
  | none =>
    obtain ⟨next, rest, rfl⟩ := List.exists_cons_of_ne_nil hrest
    obtain ⟨inner, -, rfl, -⟩ := exists_fields_of_within? hw
    exact .empty inner
  | some v =>
    obtain ⟨child', hchild', hpart⟩ := h k v hfind
    obtain rfl := Option.some.inj (hchild.symm.trans hchild')
    exact hpart

/-- **Putting more of the whole into a part** leaves a part. -/
theorem PartOf.putWithin (h : PartOf t s) (hw : s.within? p = some w) :
    PartOf (t.putWithin p w) s := by
  induction p generalizing s t with
  | nil =>
    obtain rfl : s = w := by simpa using hw
    rw [putWithin_nil]
    exact .refl s
  | cons k rest ih =>
    obtain ⟨whole, child, rfl, hchild, hw⟩ := exists_fields_of_within? hw
    obtain ⟨fields, rfl, hfields⟩ := h.exists_fields
    refine .of_fields fun l v hv => ?_
    by_cases hl : k = l
    · subst hl
      rw [Entries.find?_insert_self] at hv
      obtain rfl := Option.some.inj hv
      refine ⟨child, hchild, ?_⟩
      cases rest with
      | nil =>
        obtain rfl : child = w := by simpa using hw
        rw [putWithin_nil]
        exact .refl child
      | cons next rest => exact ih (.getD hfields hchild (List.cons_ne_nil _ _) hw) hw
    · rw [Entries.find?_insert_of_ne _ hl] at hv
      exact hfields l v hv

/-- **What a part already holds of the whole** is still there after more of it was put. -/
theorem within?_putWithin_of_partOf (h : PartOf t s) (hw : s.within? q = some w)
    (ht : t.within? p = some v) (hs : s.within? p = some v) :
    (t.putWithin q w).within? p = some v := by
  induction q generalizing s t p with
  | nil =>
    obtain rfl : s = w := by simpa using hw
    rwa [putWithin_nil]
  | cons k q ih =>
    cases p with
    | nil =>
      obtain rfl : t = v := by simpa using ht
      obtain rfl : s = t := by simpa using hs
      rw [putWithin_eq_self hw, within?_nil]
    | cons l p =>
      obtain ⟨whole, child, rfl, hchild, hw⟩ := exists_fields_of_within? hw
      obtain ⟨fields, rfl, hfields⟩ := h.exists_fields
      by_cases hl : k = l
      · subst hl
        rw [within?, hchild, Option.bind_some] at hs
        obtain ⟨part, hpart, ht⟩ := Option.bind_eq_some_iff.mp ht
        obtain ⟨child', hchild', hpartOf⟩ := hfields k part hpart
        obtain rfl := Option.some.inj (hchild.symm.trans hchild')
        rw [Value.putWithin, within?, Entries.find?_insert_self, Option.bind_some, hpart,
          Option.getD_some]
        exact ih hpartOf hw ht hs
      · rw [Value.putWithin, within?, Entries.find?_insert_of_ne _ hl]
        exact ht

/-! ## The part at some paths -/

/-- A part with what the whole holds at one more path, if there is anything. -/
def addAt (s t : Value) (p : Path) : Value :=
  match s.within? p with
  | some w => t.putWithin p w
  | none => t

theorem addAt_of_within? (t : Value) (h : s.within? p = some w) : s.addAt t p = t.putWithin p w := by
  rw [addAt, h]

theorem addAt_of_missing (t : Value) (h : s.within? p = none) : s.addAt t p = t := by
  rw [addAt, h]

/-- The part of a document that some paths lead to. -/
def partAt (s : Value) (paths : List Path) : Value := paths.foldl s.addAt (document [])

theorem partAt_concat (s : Value) (paths : List Path) (p : Path) :
    s.partAt (paths ++ [p]) = s.addAt (s.partAt paths) p := by
  rw [partAt, List.foldl_append]
  rfl

theorem PartOf.addAt (h : PartOf t s) (p : Path) : PartOf (s.addAt t p) s := by
  cases hw : s.within? p with
  | some w =>
    rw [addAt_of_within? t hw]
    exact h.putWithin hw
  | none =>
    rw [addAt_of_missing t hw]
    exact h

theorem partOf_partAt (d : Document) (paths : List Path) :
    PartOf ((document d).partAt paths) (document d) := by
  induction paths using List.reverseRecOn with
  | nil => exact .empty d
  | append_singleton paths p ih =>
    rw [partAt_concat]
    exact ih.addAt p

/-- A part that holds what the whole holds at a path still does so with one more path. -/
theorem within?_addAt (h : PartOf t s) (hp : t.within? p = s.within? p) (q : Path) :
    (s.addAt t q).within? p = s.within? p := by
  cases hs : s.within? p with
  | none => exact (h.addAt q).within?_eq_none hs
  | some v =>
    cases hw : s.within? q with
    | some w =>
      rw [addAt_of_within? t hw]
      exact within?_putWithin_of_partOf h hw (hp.trans hs) hs
    | none =>
      rw [addAt_of_missing t hw]
      exact hp.trans hs

theorem within?_addAt_self (h : PartOf t s) (p : Path) :
    (s.addAt t p).within? p = s.within? p := by
  cases hs : s.within? p with
  | none => exact (h.addAt p).within?_eq_none hs
  | some w =>
    rw [addAt_of_within? t hs]
    exact within?_putWithin (h.clear hs) w

/-- **The part at some paths holds what the whole holds there.** -/
theorem within?_partAt (d : Document) {paths : List Path} (hp : p ∈ paths) :
    ((document d).partAt paths).within? p = (document d).within? p := by
  induction paths using List.reverseRecOn with
  | nil => cases hp
  | append_singleton paths q ih =>
    rw [partAt_concat]
    have hpart := partOf_partAt d paths
    rcases List.mem_append.mp hp with hp | hp
    · exact within?_addAt hpart (ih hp) q
    · obtain rfl := List.mem_singleton.mp hp
      exact within?_addAt_self hpart p

/-- **The part at some paths is determined by what the whole holds there**, and determines it. -/
theorem partAt_eq_iff {d e : Document} {paths : List Path} :
    (document d).partAt paths = (document e).partAt paths ↔
      ∀ p ∈ paths, (document d).within? p = (document e).within? p := by
  constructor
  · intro h p hp
    rw [← within?_partAt d hp, h, within?_partAt e hp]
  · intro h
    refine List.foldl_ext _ _ _ fun t p hp => ?_
    rw [addAt, addAt, h p hp]

end Value

end Dossier
