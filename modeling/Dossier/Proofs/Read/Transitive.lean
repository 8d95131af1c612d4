import Mathlib
import Dossier.Proofs.Read.Precedence
import Dossier.Proofs.Value.Ordered

/-!
# Transitivity of sort keys

Sort keys of different kinds have no order and count as equal, as do keys of kinds without an order.
Keys that equal the same third one may be unequal then, and documents that are sorted by them stand
in no order.

* `compareKeys_trans`: sort keys are in order, apart from one case;
* **`Document.Mixes`**: that case, two keys of one ordered kind beside a third one of another kind;
* **`Document.transCmp_compareBy_iff`**: the order by a sort document is the same from both sides. It
  is transitive for no sort document with a field, and on some documents it is for all sort
  documents iff they mix kinds in none of the fields.
-/

namespace Dossier

/-! ## Sort keys -/

section Keys

variable {left middle right : Option Value} {v w : Value}

theorem isBlankKey_or (key : Option Value) :
    isBlankKey key = true ∨ ∃ v, key = some v ∧ v ≠ .null := by
  cases key with
  | none => exact .inl rfl
  | some v => cases v <;> first | exact .inl rfl | exact .inr ⟨_, rfl, by simp⟩

theorem isBlankKey_some (hv : v ≠ .null) : isBlankKey (some v) = false := by
  cases v <;> first | rfl | exact absurd rfl hv

theorem compareKeys_some (hv : v ≠ .null) (hw : w ≠ .null) :
    compareKeys (some v) (some w) = (v.compare? w).getD .eq := by
  rw [compareKeys, isBlankKey_some hv, isBlankKey_some hw]

theorem isLE_compareKeys_of_blank (h : isBlankKey left = true) (right : Option Value) :
    (compareKeys left right).isLE = true := by
  unfold compareKeys
  rw [h]
  cases isBlankKey right <;> rfl

theorem compareKeys_blank_right (hv : v ≠ .null) (h : isBlankKey right = true) :
    compareKeys (some v) right = .gt := by
  unfold compareKeys
  rw [isBlankKey_some hv, h]

instance : Std.OrientedCmp compareKeys where
  eq_swap {left right} := by
    obtain hleft | ⟨v, rfl, hv⟩ := isBlankKey_or left <;>
      obtain hright | ⟨w, rfl, hw⟩ := isBlankKey_or right
    · simp only [compareKeys, hleft, hright, Ordering.swap_eq]
    · simp only [compareKeys, hleft, isBlankKey_some hw, Ordering.swap_gt]
    · simp only [compareKeys, hright, isBlankKey_some hv, Ordering.swap_lt]
    · rw [compareKeys_some hv hw, compareKeys_some hw hv]
      cases h : v.compare? w with
      | none => rw [Value.compare?_eq_none_symm h]; rfl
      | some ordering => rw [Value.compare?_swap h]; simp

/-- **Sort keys are in order**, if the middle one is blank or has an order with the greater of two
ordered ones. -/
theorem compareKeys_trans
    (hmiddle : ∀ x y z, right = some x → left = some y → middle = some z →
      x.compare? y = some .lt → z ≠ .null → x.compare? z ≠ none)
    (hleft : (compareKeys left middle).isLE = true)
    (hright : (compareKeys middle right).isLE = true) : (compareKeys left right).isLE = true := by
  obtain hblank | ⟨y, rfl, hy⟩ := isBlankKey_or left
  · exact isLE_compareKeys_of_blank hblank right
  obtain hblank | ⟨z, rfl, hz⟩ := isBlankKey_or middle
  · rw [compareKeys_blank_right hy hblank] at hleft
    cases hleft
  obtain hblank | ⟨x, rfl, hx⟩ := isBlankKey_or right
  · rw [compareKeys_blank_right hz hblank] at hright
    cases hright
  rw [compareKeys_some hy hz] at hleft
  rw [compareKeys_some hz hx] at hright
  rw [compareKeys_some hy hx]
  by_contra hnot
  have hyx : y.compare? x = some .gt := by
    cases h : y.compare? x with
    | none => rw [h] at hnot; exact absurd rfl hnot
    | some ordering => cases ordering <;> simp_all
  obtain ⟨toMiddle, hxz⟩ :=
    Option.ne_none_iff_exists'.mp (hmiddle x y z rfl rfl rfl (Value.compare?_swap hyx) hz)
  -- all three are of one ordered kind now, so that they are in order
  have hzx := Value.compare?_swap hxz
  obtain ⟨fromLeft, hyz, -⟩ := Value.compare?_trans hyx hxz
  obtain ⟨both, hboth, hle⟩ := Value.compare?_trans hyz hzx
  rw [hyz] at hleft
  rw [hzx] at hright
  rw [hyx] at hboth
  cases hboth
  cases hle hleft hright

end Keys

/-! ## Sort documents -/

namespace Document

variable {S : Set Document} {field : String} {order : Document}

/-- The order of documents of a set by a sort document. -/
def compareWithin (S : Set Document) (order : Document) (d e : S) : Ordering :=
  order.compareBy d e

/-- Whether documents of a set mix kinds in a field: two of them have ordered keys, and a third one
has a key that is not blank and has no order with theirs. -/
def Mixes (S : Set Document) (field : String) : Prop :=
  ∃ a ∈ S, ∃ b ∈ S, ∃ c ∈ S, ∃ x y z, a.sortKey field = some x ∧ b.sortKey field = some y ∧
    c.sortKey field = some z ∧ x.compare? y = some .lt ∧ z ≠ .null ∧ x.compare? z = none

theorem compareOn_swap (field : String) (d e : Document) :
    (compareOn field d e).swap = compareOn field e d := by
  rw [compareOn, compareOn]
  exact Std.OrientedCmp.eq_swap.symm

theorem compareField_eq (entry : String × Value) (d e : Document) : compareField entry d e =
    if entry.2.isDescending then compareOn entry.1 e d else compareOn entry.1 d e := by
  rw [← compareOn_swap]
  rfl

instance (entry : String × Value) : Std.OrientedCmp (compareField entry) where
  eq_swap {d e} := by
    rw [compareField_eq, compareField_eq, ← compareOn_swap _ d e]
    split <;> simp

instance (order : Document) : Std.OrientedCmp order.compareBy := by
  induction order with
  | nil => exact ⟨rfl⟩
  | cons entry rest ih =>
    have hlex : compareBy (entry :: rest) = compareLex (compareField entry) (compareBy rest) := rfl
    rw [hlex]
    infer_instance

/-- **On documents that do not mix kinds** in a field, the order by the field is transitive. -/
theorem transCmp_compareField {entry : String × Value} (h : ¬ Mixes S entry.1) :
    Std.TransCmp fun d e : S => compareField entry d e := by
  have hkeys {d e f : S} (hde : (compareOn entry.1 d e).isLE = true)
      (hef : (compareOn entry.1 e f).isLE = true) : (compareOn entry.1 d f).isLE = true := by
    refine compareKeys_trans (fun x y z hx hy hz hxy hnull hnone => h ?_) hde hef
    exact ⟨f, f.2, d, d.2, e, e.2, x, y, z, hx, hy, hz, hxy, hnull, hnone⟩
  refine @Std.TransCmp.mk _ _ ⟨Std.OrientedCmp.eq_swap⟩ ?_
  intro d e f
  simp only [compareField_eq]
  split
  case isTrue => exact fun hed hfe => hkeys hfe hed
  case isFalse => exact hkeys

theorem transCmp_compareWithin (h : ∀ entry ∈ order, ¬ Mixes S entry.1) :
    Std.TransCmp (compareWithin S order) := by
  induction order with
  | nil => exact @Std.TransCmp.mk _ _ ⟨rfl⟩ fun _ _ => rfl
  | cons entry rest ih =>
    rw [List.forall_mem_cons] at h
    have hfirst := transCmp_compareField h.1
    have hrest := ih h.2
    have hlex : compareWithin S (entry :: rest) =
        compareLex (fun d e : S => compareField entry d e) (compareWithin S rest) := rfl
    rw [hlex]
    infer_instance

theorem compareWithin_singleton (d e : S) :
    compareWithin S [(field, .int32 1)] d e = compareOn field d e := by
  rw [compareWithin, compareBy, compareBy, Ordering.then_eq]
  rfl

/-- **On documents that mix kinds** in a field, the order by the field is not transitive. -/
theorem not_transCmp_compareWithin (h : Mixes S field) :
    ¬ Std.TransCmp (compareWithin S [(field, .int32 1)]) := by
  intro htrans
  obtain ⟨a, ha, b, hb, c, hc, x, y, z, hx, hy, hz, hxy, hnull, hnone⟩ := h
  have hxnull : x ≠ .null := by rintro rfl; cases hxy
  have hynull : y ≠ .null := by rintro rfl; cases Value.compare?_swap hxy
  have hzy : z.compare? y = none := by
    cases hzy : z.compare? y with
    | none => rfl
    | some ordering =>
      obtain ⟨both, hboth, -⟩ := Value.compare?_trans hxy (Value.compare?_swap hzy)
      rw [hnone] at hboth
      cases hboth
  have hac : compareWithin S [(field, .int32 1)] ⟨a, ha⟩ ⟨c, hc⟩ = .eq := by
    rw [compareWithin_singleton, compareOn, hx, hz, compareKeys_some hxnull hnull, hnone]
    rfl
  have hcb : compareWithin S [(field, .int32 1)] ⟨c, hc⟩ ⟨b, hb⟩ = .eq := by
    rw [compareWithin_singleton, compareOn, hz, hy, compareKeys_some hnull hynull, hzy]
    rfl
  have hab := Std.TransCmp.eq_trans hac hcb
  rw [compareWithin_singleton, compareOn, hx, hy, compareKeys_some hxnull hynull, hxy] at hab
  cases hab

theorem compareBy_under (field : String) {x y : Value} (hx : ∀ segment, x.children segment = [])
    (hy : ∀ segment, y.children segment = []) (h : compareKeys (some x) (some y) = .eq)
    (order : Document) : order.compareBy (under field x) (under field y) = .eq := by
  induction order with
  | nil => rfl
  | cons entry rest ih =>
    have hentry : compareOn entry.1 (under field x) (under field y) = .eq := by
      by_cases hfield : entry.1 = field
      · rw [hfield, compareOn, sortKey_under_self, sortKey_under_self, h]
      · exact compareOn_under_of_ne hfield hx hy
    have hfirst : compareField entry (under field x) (under field y) = .eq := by
      rw [compareField_eq, ← compareOn_swap entry.1 (under field x), hentry]
      split <;> rfl
    rw [compareBy, hfirst, ih]
    rfl

/-- Two numbers are unequal, and both equal the text between them. -/
theorem not_transCmp_compareBy (entry : String × Value) (rest : Document) :
    ¬ Std.TransCmp (compareBy (entry :: rest)) := by
  intro htrans
  have hleft := compareBy_under entry.1 (x := .int32 2) (y := .string "x")
    (fun _ => rfl) (fun _ => rfl) rfl (entry :: rest)
  have hright := compareBy_under entry.1 (x := .string "x") (y := .int32 1)
    (fun _ => rfl) (fun _ => rfl) rfl (entry :: rest)
  have hboth := Std.TransCmp.eq_trans hleft hright
  have hfield : compareField entry (under entry.1 (.int32 2)) (under entry.1 (.int32 1)) ≠ .eq := by
    rw [compareField_eq, compareOn, compareOn, sortKey_under_self, sortKey_under_self]
    split <;> decide
  exact hfield (Ordering.then_eq_eq.mp hboth).1

/-- **Whether sorting has an order to sort by.** The order of documents by a sort document is the same
from both sides. It is transitive only for the empty sort document. On the documents of a set it is
transitive for all sort documents with fields of a list iff the documents mix kinds in none of
them. -/
theorem transCmp_compareBy_iff (order : Document) (S : Set Document) (fields : List String) :
    (∀ d e, order.compareBy d e = (order.compareBy e d).swap) ∧
      (Std.TransCmp order.compareBy ↔ order = []) ∧
      ((∀ other : Document, (∀ entry ∈ other, entry.1 ∈ fields) →
          Std.TransCmp (compareWithin S other)) ↔ ∀ field ∈ fields, ¬ Mixes S field) := by
  refine ⟨fun d e => Std.OrientedCmp.eq_swap, ⟨fun htrans => ?_, ?_⟩,
    ⟨fun h field hfield hmixes => ?_, fun h other hother => ?_⟩⟩
  · cases order with
    | nil => rfl
    | cons entry rest => exact absurd htrans (not_transCmp_compareBy entry rest)
  · rintro rfl
    exact @Std.TransCmp.mk _ _ ⟨rfl⟩ fun _ _ => rfl
  · exact not_transCmp_compareWithin hmixes (h _ (by simpa using hfield))
  · exact transCmp_compareWithin fun entry hentry => h entry.1 (hother entry hentry)

/-- The number 2 equals a text, the text equals the number 1, and 2 comes after 1. -/
theorem compareBy_text_between :
    let byRank : Document := [("rank", .int32 1)]
    byRank.compareBy [("rank", .int32 2)] [("rank", .string "x")] = .eq ∧
      byRank.compareBy [("rank", .string "x")] [("rank", .int32 1)] = .eq ∧
      byRank.compareBy [("rank", .int32 2)] [("rank", .int32 1)] = .gt := ⟨rfl, rfl, rfl⟩

end Document

end Dossier
