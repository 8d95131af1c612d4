import Mathlib
import Dossier.Proofs.Condition.Elements
import Dossier.Proofs.Value.Equivalence
import Dossier.Proofs.Value.Exact

/-!
# Equality and order in conditions

Equality is tested for values of every kind, and a missing field equals null. Order is tested for
values of one ordered kind only. With an operand of an ordered kind the two fit together.

* `ElementKind.isOrdered`: the kinds whose values have an order;
* `Scalar.equal_iff_compare?`, **`Value.alike_iff_compare?`**: what equals a value of an ordered kind
  is what stands in the order `eq` to it;
* **`Document.equalsAt_iff_orderedAt`**, `Document.orderedAt_weak_iff`: so it is on every path, and a
  weak order is a strict one or equality;
* `Document.compareAt_of_lone`: a path that reaches one value and no elements;
* **`Condition.holds_relations`**: the weak comparisons are the strict ones or equality, and one value of
  the operand's kind passes just one of less, equal and greater.
-/

namespace Dossier

/-! ## Scalars -/

namespace Scalar

variable {a b : Scalar} {ordering : Ordering}

theorem Ordered.eq_iff (h : Ordered a b ordering) : ordering = .eq ↔ a = b := by
  cases h with
  | bool b c =>
    rw [compare_eq_iff_eq, bool.injEq]
    cases b <;> cases c <;> decide
  | number r s => rw [compare_eq_iff_eq, number.injEq, Option.some.injEq]
  | dateTime m n => rw [compare_eq_iff_eq, dateTime.injEq, Int64.toInt_inj]
  | objectId i j => rw [compare_eq_iff_eq, objectId.injEq, BitVec.toNat_inj, ObjectId.mk.injEq]
  | string s t => rw [compare_eq_iff_eq, string.injEq]
  | timestamp s i t j =>
    rw [compareTimes, Ordering.then_eq_eq, compare_eq_iff_eq, compare_eq_iff_eq, timestamp.injEq,
      UInt32.toNat_inj, UInt32.toNat_inj]

theorem exists_ordered_self (h : a ≠ number none) : ∃ ordering, Ordered a a ordering := by
  obtain _ | ⟨_ | _⟩ | _ | _ | _ | _ := a
  case number.none => exact absurd rfl h
  all_goals exact ⟨_, by constructor⟩

/-- **Equality of scalars** is the order `eq`. -/
theorem equal_iff_compare? : a.equal b = true ↔ a.compare? b = some .eq := by
  rw [equal_iff, compare?_eq_some_iff]
  constructor
  · rintro ⟨rfl, hnan⟩
    obtain ⟨ordering, hself⟩ := exists_ordered_self hnan
    rwa [hself.eq_iff.mpr rfl] at hself
  · intro h
    refine ⟨h.eq_iff.mp rfl, ?_⟩
    rintro rfl
    cases h

end Scalar

/-! ## Values -/

/-- Whether the values of a kind have an order. -/
def ElementKind.isOrdered : ElementKind → Bool
  | .boolean | .int32 | .int64 | .double | .dateTime | .objectId | .string | .timestamp => true
  | _ => false

namespace Value

variable {v w : Value}

theorem isOrdered_kind (v : Value) : v.kind.isOrdered = v.scalar?.isSome := by
  cases v <;> rfl

theorem alike_of_scalar? {b : Scalar} (hw : w.scalar? = some b) :
    v.alike w = v.scalar?.any (·.equal b) := by
  cases hv : v.isAtom with
  | true =>
    rw [alike_of_isAtom hv, hw]
    cases v.scalar? <;> rfl
  | false =>
    -- what holds other values is no scalar, and `w` is one
    cases v <;> cases hv <;> cases w <;> first | rfl | cases hw

/-- **What equals a value of an ordered kind** is what stands in the order `eq` to it. -/
theorem alike_iff_compare? (hw : w.kind.isOrdered = true) :
    v.alike w = true ↔ v.compare? w = some .eq := by
  rw [isOrdered_kind] at hw
  obtain ⟨b, hb⟩ := Option.isSome_iff_exists.mp hw
  rw [alike_of_scalar? hb, compare?, hb]
  cases v.scalar? with
  | none => simp
  | some a => exact Scalar.equal_iff_compare?

theorem items_of_orderedKind? {kind : OrderedKind} (h : v.orderedKind? = some kind) :
    v.items = [] := by
  cases v <;> first | rfl | cases h

end Value

/-- The strict comparison, or equality, that a value in an order to an operand passes. -/
def Relation.ofOrdering : Ordering → Relation
  | .lt => .less
  | .eq => .equals
  | .gt => .greater

/-! ## Paths -/

namespace Document

variable {d : Document} {p : Path} {v operand : Value} {wanted first second : Ordering → Bool}

/-- **A path equals an operand of an ordered kind** when some candidate stands in the order `eq` to
it; null, which a missing field equals, is of no ordered kind. -/
theorem equalsAt_iff_orderedAt (h : operand.kind.isOrdered = true) :
    d.equalsAt p operand = true ↔ d.orderedAt p operand Ordering.isEq = true := by
  have hnull : operand ≠ .null := by
    rintro rfl
    cases h
  simp only [equalsAt_iff, orderedAt_iff, hnull, false_and, false_or]
  refine exists_congr fun w => and_congr_right fun _ => ?_
  rw [Value.alike_iff_compare? h]
  cases w.compare? operand with
  | none => simp
  | some ordering => cases ordering <;> simp

theorem orderedAt_or (h : ∀ ordering, wanted ordering = (first ordering || second ordering)) :
    d.orderedAt p v wanted = true ↔
      d.orderedAt p v first = true ∨ d.orderedAt p v second = true := by
  simp only [orderedAt_iff, Option.any_eq_true, h, Bool.or_eq_true]
  constructor
  · rintro ⟨w, hw, ordering, hordering, hfirst | hsecond⟩
    · exact .inl ⟨w, hw, ordering, hordering, hfirst⟩
    · exact .inr ⟨w, hw, ordering, hordering, hsecond⟩
  · rintro (⟨w, hw, ordering, hordering, hfirst⟩ | ⟨w, hw, ordering, hordering, hsecond⟩)
    · exact ⟨w, hw, ordering, hordering, .inl hfirst⟩
    · exact ⟨w, hw, ordering, hordering, .inr hsecond⟩

/-- **A weak order** of an operand of an ordered kind is a strict one or equality. -/
theorem orderedAt_weak_iff {weak strict : Ordering → Bool} (hoperand : operand.kind.isOrdered = true)
    (h : ∀ ordering, weak ordering = (strict ordering || ordering.isEq)) :
    d.orderedAt p operand weak = true ↔
      d.orderedAt p operand strict = true ∨ d.equalsAt p operand = true := by
  rw [equalsAt_iff_orderedAt hoperand]
  exact orderedAt_or h

theorem orderedAt_of_lone {ordering : Ordering} (hreach : d.reach p = [v]) (hitems : v.items = [])
    (h : v.compare? operand = some ordering) :
    d.orderedAt p operand wanted = wanted ordering := by
  simp [orderedAt, candidates, hreach, hitems, h]

theorem compareAt_of_lone {ordering : Ordering} {relation : Relation}
    (hoperand : operand.kind.isOrdered = true) (hreach : d.reach p = [v]) (hitems : v.items = [])
    (h : v.compare? operand = some ordering)
    (hrelation : relation ∈ [Relation.less, .equals, .greater]) :
    d.compareAt p operand relation = true ↔ relation = .ofOrdering ordering := by
  simp only [List.mem_cons, List.not_mem_nil, or_false] at hrelation
  rcases hrelation with rfl | rfl | rfl
  case inr.inl =>
    rw [compareAt, equalsAt_iff_orderedAt hoperand, orderedAt_of_lone hreach hitems h]
    cases ordering <;> decide
  all_goals
    rw [compareAt, orderedAt_of_lone hreach hitems h]
    cases ordering <;> decide

end Document

/-! ## Conditions -/

namespace Condition

/-- **Equality and order of conditions.** With an operand of an ordered kind, a field is greater or
equal iff it is greater or it equals, and less or equal iff it is less or it equals, whatever the path
reaches. Where it reaches one value, of the ordered kind of the operand, the field is just one of less,
equal and greater; NaN is of no ordered kind. -/
theorem holds_relations (field : String) {operand : Value} (hoperand : operand.kind.isOrdered = true)
    (d : Document) :
    ((compare field .greaterOrEquals operand).holds d = true ↔
      (compare field .greater operand).holds d = true ∨
        (compare field .equals operand).holds d = true) ∧
    ((compare field .lessOrEquals operand).holds d = true ↔
      (compare field .less operand).holds d = true ∨
        (compare field .equals operand).holds d = true) ∧
    ∀ v kind, d.reach (Dotted.segments field) = [v] → v.orderedKind? = some kind →
      operand.orderedKind? = some kind →
      ∃! relation, relation ∈ [Relation.less, .equals, .greater] ∧
        (compare field relation operand).holds d = true := by
  simp only [holds]
  refine ⟨Document.orderedAt_weak_iff hoperand fun ordering => ?_,
    Document.orderedAt_weak_iff hoperand fun ordering => ?_, fun v kind hreach hv hkind => ?_⟩
  · cases ordering <;> rfl
  · cases ordering <;> rfl
  obtain ⟨ordering, hordering⟩ := Value.exists_compare? hv hkind
  have hlone {relation : Relation} (hrelation : relation ∈ [Relation.less, .equals, .greater]) :=
    Document.compareAt_of_lone hoperand hreach (Value.items_of_orderedKind? hv) hordering hrelation
  have hnamed : Relation.ofOrdering ordering ∈ [Relation.less, .equals, .greater] := by
    cases ordering <;> decide
  refine ⟨.ofOrdering ordering, ⟨hnamed, (hlone hnamed).mpr rfl⟩, ?_⟩
  rintro relation ⟨hrelation, hholds⟩
  exact (hlone hrelation).mp hholds

/-- Lists of numbers, one of them beside a text, reach the number 5 and one below it; an age is in one
order to it. -/
theorem holds_relations_lines :
    let d : Document := [("age", .int32 30), ("lines", .array [.document [("qty", .int32 1)],
      .document [("qty", .array [.int64 5, .string "x"])]])]
    (Value.int64 5).kind.isOrdered = true ∧
      (compare "lines.qty" .greaterOrEquals (.int64 5)).holds d = true ∧
      (compare "lines.qty" .greater (.int64 5)).holds d = false ∧
      (compare "lines.qty" .lessOrEquals (.int64 5)).holds d = true ∧
      d.reach (Dotted.segments "age") = [.int32 30] ∧
      (Value.int32 30).orderedKind? = some .number ∧ (Value.int64 5).orderedKind? = some .number ∧
      ∃! relation, relation ∈ [Relation.less, .equals, .greater] ∧
        (compare "age" relation (.int64 5)).holds d = true := by
  intro d
  have hoperand : (Value.int64 5).kind.isOrdered = true := rfl
  obtain ⟨hgreater, hless, -⟩ := holds_relations "lines.qty" hoperand d
  obtain ⟨-, -, hlone⟩ := holds_relations "age" hoperand d
  exact ⟨hoperand, hgreater.mpr (.inr rfl), rfl, hless.mpr (.inl rfl), rfl, rfl, rfl,
    hlone (.int32 30) .number rfl rfl rfl⟩

end Condition

end Dossier
