import Mathlib
import Dossier.Proofs.Number.Rounded
import Dossier.Proofs.Value.Ordered

/-!
# Values by exact numbers

Filters and sort keys compare numbers by their nearest doubles, and some integers share one.

* `Value.orderedKind?`: the ordered kinds, within which values have an order (`exists_compare?`);
* `Value.number?`: the number that a value holds;
* `Value.compareExactly?`: the order of values, numbers compared as they are;
* **`Value.Confused`**: different numbers with one nearest double; the two orders differ on these
  only (`compareExactly?_eq`, `Confused.compare?_eq`).
-/

namespace Dossier

/-! ## Kinds -/

/-- The kinds of values that have an order. -/
inductive OrderedKind where
  | bool | number | dateTime | objectId | string | timestamp

namespace Scalar

/-- The kind of a scalar. NaN is of none. -/
def kind? : Scalar → Option OrderedKind
  | bool _ => some .bool
  | number rank => rank.map fun _ => .number
  | dateTime _ => some .dateTime
  | objectId _ => some .objectId
  | string _ => some .string
  | timestamp _ _ => some .timestamp

theorem exists_compare? {a b : Scalar} {kind : OrderedKind} (ha : a.kind? = some kind)
    (hb : b.kind? = some kind) : ∃ ordering, a.compare? b = some ordering := by
  -- of the pairs of cases, those of one kind have an order, and in the others the kinds differ
  obtain _ | ⟨_ | _⟩ | _ | _ | _ | _ := a <;> obtain _ | ⟨_ | _⟩ | _ | _ | _ | _ := b <;>
    first | exact ⟨_, rfl⟩ | (cases ha <;> cases hb)

end Scalar

namespace Value

variable {v w : Value} {m n : ℤ}

/-- The ordered kind of a value. -/
def orderedKind? (v : Value) : Option OrderedKind := v.scalar?.bind Scalar.kind?

/-- **Values of one ordered kind** have an order. -/
theorem exists_compare? {kind : OrderedKind} (hv : v.orderedKind? = some kind)
    (hw : w.orderedKind? = some kind) : ∃ ordering, v.compare? w = some ordering := by
  obtain ⟨a, ha, hakind⟩ := Option.bind_eq_some_iff.mp hv
  obtain ⟨b, hb, hbkind⟩ := Option.bind_eq_some_iff.mp hw
  rw [compare?, ha, hb]
  exact Scalar.exists_compare? hakind hbkind

/-! ## Numbers -/

/-- The number that a value holds, in units of the least positive double. NaN is none. -/
def number? : Value → Option ℤ
  | int32 n => some (n.toInt * Double.unit)
  | int64 n => some (n.toInt * Double.unit)
  | double x => (Double.rank? x).map Double.numberOfRank
  | _ => none

/-- The order of two values of one ordered kind, numbers compared as they are. -/
def compareExactly? (v w : Value) : Option Ordering :=
  match v.number?, w.number? with
  | some m, some n => some (compare m n)
  | _, _ => v.compare? w

/-- Whether two values hold different numbers that have one nearest double. -/
def Confused (v w : Value) : Prop :=
  ∃ m n, v.number? = some m ∧ w.number? = some n ∧ m ≠ n ∧ v.scalar? = w.scalar?

theorem exists_nearest (h : v.number? = some m) :
    ∃ r, v.scalar? = some (.number (some r)) ∧ Double.Nearest m r := by
  cases v with
  | int32 k => obtain rfl := Option.some.inj h; exact ⟨_, rfl, .ofInt _⟩
  | int64 k => obtain rfl := Option.some.inj h; exact ⟨_, rfl, .ofInt _⟩
  | double x =>
    obtain ⟨r, hr, rfl⟩ := Option.map_eq_some_iff.mp h
    exact ⟨r, by rw [scalar?, hr], .ofRank r⟩
  | _ => cases h

theorem Confused.symm (h : Confused v w) : Confused w v := by
  obtain ⟨m, n, hm, hn, hne, hscalar⟩ := h
  exact ⟨n, m, hn, hm, hne.symm, hscalar.symm⟩

theorem not_confused_self (v : Value) : ¬ Confused v v := by
  rintro ⟨m, n, hm, hn, hne, -⟩
  rw [hm] at hn
  exact hne (Option.some.inj hn)

theorem ne_null_of_number? (h : v.number? = some m) : v ≠ .null := by
  rintro rfl
  cases h

/-- **Confused numbers** are equal by their nearest double. -/
theorem Confused.compare?_eq (h : Confused v w) : v.compare? w = some .eq := by
  obtain ⟨m, n, hm, -, -, hscalar⟩ := h
  obtain ⟨r, hr, -⟩ := exists_nearest hm
  rw [compare?, ← hscalar, hr]
  exact congrArg some Std.ReflOrd.compare_self

theorem compareExactly?_of_number? (hv : v.number? = some m) (hw : w.number? = some n) :
    v.compareExactly? w = some (compare m n) := by
  rw [compareExactly?, hv, hw]

/-- **All other values** are in one order by numbers and by nearest doubles. -/
theorem compareExactly?_eq (h : ¬ Confused v w) : v.compareExactly? w = v.compare? w := by
  unfold compareExactly?
  split
  case h_2 => rfl
  case h_1 m n hm hn =>
    obtain ⟨r, hr, hmr⟩ := exists_nearest hm
    obtain ⟨s, hs, hns⟩ := exists_nearest hn
    have hranks : v.compare? w = some (compare r s) := by rw [compare?, hr, hs]; rfl
    rw [hranks]
    obtain hlt | rfl | hgt := lt_trichotomy m n
    · have hne : r ≠ s := fun heq => h ⟨m, n, hm, hn, hlt.ne, by rw [hr, hs, heq]⟩
      rw [compare_lt_iff_lt.mpr hlt, compare_lt_iff_lt.mpr ((hmr.mono hns hlt.le).lt_of_ne hne)]
    · have heq : r = s := le_antisymm (hmr.mono hns le_rfl) (hns.mono hmr le_rfl)
      rw [compare_eq_iff_eq.mpr rfl, compare_eq_iff_eq.mpr heq]
    · have hne : s ≠ r := fun heq => h ⟨m, n, hm, hn, hgt.ne', by rw [hr, hs, heq]⟩
      rw [compare_gt_iff_gt.mpr hgt, compare_gt_iff_gt.mpr ((hns.mono hmr hgt.le).lt_of_ne hne)]

end Value

end Dossier
