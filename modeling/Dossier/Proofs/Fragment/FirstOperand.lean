import Mathlib
import Dossier.Proofs.Fragment.SameEffect

/-!
# The first of several operands

A comparison with a list of operands takes the first of them. But all of them pass the codebook, and
one that the codec refuses stops the call.

* `Query.filterValues?_of_takes`, `Query.filterValues?_of_not_takes`: what a call with a list makes
  of a query;
* **`Query.sameEffect_filterValues_iff`**: a comparison with a list has the effect of that with its
  first element iff no other operand is refused where the first one is not. The typed calls, which
  convert nothing but the first, always have the same effect;
* `Query.filterValues_rejected`: a second operand that is refused.
-/

namespace Dossier

theorem Relation.isMembership_op (relation : Relation) : relation.op.isMembership = false := by
  cases relation <;> rfl

namespace Condition

theorem ofOperand?_op (field : String) (relation : Relation) (w : Value) :
    ofOperand? field relation.op w = some (compare field relation w) := by
  cases relation <;> rfl

theorem ofOperands?_op_cons (field : String) (relation : Relation) (w : Value) (ws : List Value) :
    ofOperands? field relation.op (w :: ws) = some (compare field relation w) := by
  cases relation <;> rfl

end Condition

namespace Query

variable {book : Codebook} {q : Query} {field : String} {relation : Relation} {v : Value}
  {rest : List Value}

theorem filter?_of_error {cause : StoreError} (h : book.encodeOperand field v = .error cause) :
    q.filter? book field v relation.op = none := by
  rw [filter?, h]
  rfl

theorem filter?_of_ok {w : Value} (h : book.encodeOperand field v = .ok w) :
    q.filter? book field v relation.op = some (q.addCondition (.compare field relation w)) := by
  rw [filter?, h]
  simp [Except.toOption, Condition.ofOperand?_op]

theorem filter?_eq_none_iff :
    q.filter? book field v relation.op = none ↔ ¬ book.Takes field v := by
  rw [← Codebook.exists_encodeOperand_iff]
  cases h : book.encodeOperand field v with
  | error cause => simp [filter?_of_error h]
  | ok w => simp [filter?_of_ok h]

theorem filterValues?_of_takes (h : ∀ w ∈ rest, book.Takes field w) :
    q.filterValues? book field (v :: rest) relation.op = q.filter? book field v relation.op := by
  obtain ⟨ws, hws⟩ := Codebook.exists_mapM_encodeOperand_iff.mpr h
  rw [filterValues?, List.mapM_cons, hws]
  cases hv : book.encodeOperand field v with
  | error cause =>
    rw [filter?_of_error hv]
    rfl
  | ok w =>
    rw [filter?_of_ok hv]
    simp [bind, Except.bind, pure, Except.pure, Except.toOption, Condition.ofOperands?_op_cons]

/-- An operand that is refused stops the call, wherever it is in the list. -/
theorem filterValues?_of_not_takes {vs : List Value} {op : FilterOp}
    (h : ¬ ∀ w ∈ vs, book.Takes field w) : q.filterValues? book field vs op = none := by
  have herror : ¬ ∃ ws, vs.mapM (book.encodeOperand field) = .ok ws := by
    rwa [Codebook.exists_mapM_encodeOperand_iff]
  rw [filterValues?]
  cases hvs : vs.mapM (book.encodeOperand field) with
  | error cause => rfl
  | ok ws => exact absurd ⟨ws, hvs⟩ herror

theorem perform_filterValues_eq_iff :
    q.perform (.filterValues book field (v :: rest) relation.op) =
      q.perform (.filter book field v relation.op) ↔
    (book.Takes field v → ∀ w ∈ rest, book.Takes field w) := by
  rw [perform, perform]
  by_cases hrest : ∀ w ∈ rest, book.Takes field w
  · exact iff_of_true (filterValues?_of_takes hrest) fun _ => hrest
  · have hrefused : ¬ ∀ w ∈ v :: rest, book.Takes field w :=
      fun h => hrest (List.forall_mem_cons.mp h).2
    rw [filterValues?_of_not_takes hrefused, eq_comm, filter?_eq_none_iff]
    exact ⟨fun hv htakes => absurd htakes hv, fun h hv => hrest (h hv)⟩

/-- **A comparison with a list of operands** has the effect of the comparison with its first one iff
the codec of the field takes all the others, or refuses the first one too; else it is refused and
records nothing. So it always does for a field just when its codec takes all values or none. On
typed fields it always does. -/
theorem sameEffect_filterValues_iff (book : Codebook) (field : String) :
    (∀ (q : Query) (relation : Relation) (v : Value) (rest : List Value),
      (q.SameEffect (.filterValues book field (v :: rest) relation.op)
          (.filter book field v relation.op) ↔
        (book.Takes field v → ∀ w ∈ rest, book.Takes field w)) ∧
      ((∃ w ∈ rest, ¬ book.Takes field w) →
        (Fragments.record (.filterValues book field (v :: rest) relation.op)).run q.fragments =
          (false, q.fragments))) ∧
    ((∀ (q : Query) (relation : Relation) (v : Value) (rest : List Value),
      q.SameEffect (.filterValues book field (v :: rest) relation.op)
        (.filter book field v relation.op)) ↔
      ∀ v w, book.Takes field v → book.Takes field w) ∧
    ∀ {δ α : Type} [ToValue α] (q : Query) (typed : Field δ α) (relation : Relation) (a : α)
      (as : List α),
      q.SameEffect (.filterValuesOn book typed (a :: as) relation.op)
        (.filterOn book typed a relation.op) := by
  have hiff (q : Query) (relation : Relation) (v : Value) (rest : List Value) :
      q.SameEffect (.filterValues book field (v :: rest) relation.op)
        (.filter book field v relation.op) ↔
      (book.Takes field v → ∀ w ∈ rest, book.Takes field w) := by
    rw [sameEffect_iff, perform_filterValues_eq_iff]
  refine ⟨fun q relation v rest => ⟨hiff q relation v rest, fun hrefused => ?_⟩, ?_, ?_⟩
  · obtain ⟨w, hw, hnot⟩ := hrefused
    rw [Fragments.run_record_fragments, perform,
      filterValues?_of_not_takes fun h => hnot (h w (List.mem_cons_of_mem v hw))]
    rfl
  · simp only [hiff]
    constructor
    · intro h v w hv
      exact h empty .equals v [w] hv w (by simp)
    · exact fun h _ _ v _ hv w _ => h v w hv
  · intro δ α _ q typed relation a as
    rw [sameEffect_iff, perform, perform, filterValuesOn?]
    simp only [relation.isMembership_op, Bool.false_eq_true, if_false]

/-- The second of two amounts in stock is a text, which the codec refuses. -/
theorem filterValues_rejected :
    let book : Codebook := { codecs := [("stock", .negation)] }
    let stored : FilterFragment := .value "stock" .equals (.int32 (-3))
    (Fragments.record (.filterValues book "stock" [.int32 3, .string "few"] .equals)).run {} =
        (false, {}) ∧
      (Fragments.record (.filter book "stock" (.int32 3) .equals)).run {} =
        (true, { filters := [stored] }) := ⟨rfl, rfl⟩

end Query

end Dossier
