import Mathlib
import Dossier.Proofs.Fragment.FirstOperand

/-!
# Calls of one meaning

Some calls can be made in two ways: an arithmetic update as an update or as one by an amount, and a
test for an identity with the identity or with its value. Only one of the two ways passes the operand
through the codec of its field.

* `Query.perform_update_eq_iff`, `Query.perform_filterId_eq_iff`, `Query.perform_filterIds_eq_iff`:
  when two ways make the same query;
* `Query.Synonymous`: both ways always have the same effect on a field;
* **`Query.sameEffect_synonyms_iff`**: that is so iff the codec of the field, if there is one, leaves
  amounts and identities as they are;
* `Query.synonyms_differ`: fields with codecs that do not.
-/

namespace Dossier

variable {book : Codebook} {q : Query} {field : String} {v : Value} {id : Identity}

/-! ## Conditions of operators -/

theorem FilterOp.exists_relation {op : FilterOp} (h : op.isValue = true) :
    ∃ relation : Relation, op = relation.op := by
  obtain ⟨relation, hrelation⟩ := Option.isSome_iff_exists.mp h
  refine ⟨relation, ?_⟩
  cases op <;> cases hrelation <;> rfl

theorem Relation.isValue_op (relation : Relation) : relation.op.isValue = true := by
  cases relation <;> rfl

theorem Relation.isExistence_op (relation : Relation) : relation.op.isExistence = false := by
  cases relation <;> rfl

namespace Condition

theorem exists_of_isExistence (field : String) {op : FilterOp} (h : op.isExistence = true) :
    ∃ c, (∀ w, ofOperand? field op w = some c) ∧ ∀ ws, ofOperands? field op ws = some c := by
  cases op <;> first | exact ⟨_, fun _ => rfl, fun _ => rfl⟩ | cases h

theorem exists_of_isMembership (field : String) {op : FilterOp} (h : op.isMembership = true) :
    ∃ expected, ∀ w ws, ofOperands? field op (w :: ws) = some (member field (w :: ws) expected) := by
  cases op <;> first | exact ⟨_, fun _ _ => rfl⟩ | cases h

theorem ofOperand?_eq_none {op : FilterOp} (he : op.isExistence = false) (hv : op.isValue = false)
    (w : Value) : ofOperand? field op w = none := by
  cases op <;> first | rfl | exact absurd he (by decide) | exact absurd hv (by decide)

theorem ofOperands?_nil {op : FilterOp} (he : op.isExistence = false) :
    ofOperands? field op [] = none := by
  cases op <;> first | rfl | cases he

theorem ofOperands?_eq_none {op : FilterOp} (he : op.isExistence = false)
    (hm : op.isMembership = false) (hv : op.isValue = false) (ws : List Value) :
    ofOperands? field op ws = none := by
  cases ws with
  | nil => exact ofOperands?_nil he
  | cons w ws =>
    cases op <;> first
      | rfl
      | exact absurd he (by decide)
      | exact absurd hm (by decide)
      | exact absurd hv (by decide)

end Condition

theorem Identity.isAtom_toValue (id : Identity) : id.toValue.isAtom = true := by cases id <;> rfl

namespace Query

theorem addCondition_injective (q : Query) : Function.Injective q.addCondition := by
  intro c c' h
  simpa [addCondition] using h

theorem addUpdate_injective (q : Query) : Function.Injective q.addUpdate := by
  intro u u' h
  simpa [addUpdate] using h

/-! ## Arithmetic updates -/

theorem exists_change_of_isNumeric {op : UpdateOp} (h : op.isNumeric = true) :
    ∃ change : Amount → Change, Function.Injective change ∧
      (∀ amount, Change.arithmetic? op amount = some (change amount)) ∧
      ∀ w, Change.ofOperator? op w = (Amount.ofValue? w).map change := by
  cases op
  case incrementNumericalValue =>
    exact ⟨.increment, fun _ _ => Change.increment.inj, fun _ => rfl, fun _ => rfl⟩
  case multiplyNumericalValue =>
    exact ⟨.multiply, fun _ _ => Change.multiply.inj, fun _ => rfl, fun _ => rfl⟩
  all_goals cases h

theorem perform_update_eq_iff {op : UpdateOp} (h : op.isNumeric = true) :
    q.perform (.update book field v op) = q.perform (.updateAmount field v op) ↔
      book.KeepsAmount field v := by
  obtain ⟨change, hinj, harithmetic, hoperator⟩ := exists_change_of_isNumeric h
  let record (amount : Amount) : Query := q.addUpdate ⟨field, change amount⟩
  have hrecord : Function.Injective record := fun a b hab =>
    hinj (Update.mk.inj (q.addUpdate_injective hab)).2
  have hupdate : q.perform (.update book field v op) =
      ((book.encodeOperand field v).toOption.bind Amount.ofValue?).map record := by
    rw [perform, update?]
    simp only [hoperator]
    cases (book.encodeOperand field v).toOption with
    | none => rfl
    | some w => simp [record, Function.comp_def]
  have hamount : q.perform (.updateAmount field v op) = (Amount.ofValue? v).map record := by
    rw [perform, updateAmount?]
    simp only [harithmetic]
    cases Amount.ofValue? v <;> rfl
  rw [hupdate, hamount, (Option.map_injective hrecord).eq_iff, Codebook.amount_encodeOperand_iff]

/-! ## Tests for identities -/

theorem perform_filterId_op_eq_iff {relation : Relation} :
    q.perform (.filterId field id relation.op) =
      q.perform (.filter book field id.toValue relation.op) ↔ book.Keeps field id.toValue := by
  rw [perform, perform, filterId?, Condition.ofOperand?_op, Option.map_some,
    ← Codebook.encodeOperand_eq_self_iff id.isAtom_toValue]
  cases h : book.encodeOperand field id.toValue with
  | error cause => simp [filter?_of_error h]
  | ok w => simp [filter?_of_ok h, (addCondition_injective q).eq_iff, eq_comm]

/-- **A test for an identity** is recorded alike in both ways iff the codec takes the identity, where
the test is for presence, and leaves it, where it is a comparison. -/
theorem perform_filterId_eq_iff {op : FilterOp} :
    q.perform (.filterId field id op) = q.perform (.filter book field id.toValue op) ↔
      (op.isExistence = true → book.Takes field id.toValue) ∧
        (op.isValue = true → book.Keeps field id.toValue) := by
  by_cases hv : op.isValue = true
  · obtain ⟨relation, rfl⟩ := FilterOp.exists_relation hv
    simp [perform_filterId_op_eq_iff, relation.isValue_op, relation.isExistence_op]
  by_cases he : op.isExistence = true
  · obtain ⟨c, hc, -⟩ := Condition.exists_of_isExistence field he
    rw [perform, perform, filterId?, filter?, hc, ← Codebook.exists_encodeOperand_iff]
    cases book.encodeOperand field id.toValue <;> simp [Except.toOption, hc, he, hv]
  · rw [Bool.not_eq_true] at hv he
    rw [perform, perform, filterId?, filter?, Condition.ofOperand?_eq_none he hv]
    cases (book.encodeOperand field id.toValue).toOption <;>
      simp [Condition.ofOperand?_eq_none he hv, he, hv]

/-! ## Tests for lists of identities -/

variable {ids : List Identity}

theorem perform_filterIds_nil {op : FilterOp} (he : op.isExistence = false) :
    q.perform (.filterIds field [] op) = none ∧
      q.perform (.filterValues book field [] op) = none := by
  have hnil : (([] : List Value).mapM (book.encodeOperand field)).toOption = some [] := rfl
  rw [perform, perform, filterIds?, filterValues?, List.map_nil, hnil,
    Condition.ofOperands?_nil he]
  simp [Condition.ofOperands?_nil he]

theorem perform_filterIds_op_eq_iff {relation : Relation} {first : Identity}
    {rest : List Identity} :
    q.perform (.filterIds field (first :: rest) relation.op) =
      q.perform (.filterValues book field ((first :: rest).map Identity.toValue) relation.op) ↔
    book.Keeps field first.toValue ∧ ∀ id ∈ rest, book.Takes field id.toValue := by
  have hids : q.perform (.filterIds field (first :: rest) relation.op) =
      q.perform (.filterId field first relation.op) := by
    rw [perform, perform, filterIds?, filterId?, List.map_cons, Condition.ofOperands?_op_cons,
      Condition.ofOperand?_op]
  rw [hids, List.map_cons]
  by_cases hrest : ∀ id ∈ rest, book.Takes field id.toValue
  · have hvalues : q.perform (.filterValues book field
          (first.toValue :: rest.map Identity.toValue) relation.op) =
        q.perform (.filter book field first.toValue relation.op) :=
      filterValues?_of_takes (List.forall_mem_map.mpr hrest)
    rw [hvalues, perform_filterId_op_eq_iff]
    exact (and_iff_left hrest).symm
  · have hrefused : ¬ ∀ v ∈ first.toValue :: rest.map Identity.toValue, book.Takes field v :=
      fun h => hrest (List.forall_mem_map.mp (List.forall_mem_cons.mp h).2)
    rw [perform, perform, filterValues?_of_not_takes hrefused, filterId?,
      Condition.ofOperand?_op, Option.map_some]
    exact iff_of_false (Option.some_ne_none _) fun h => hrest h.2

theorem perform_filterIds_membership_eq_iff {op : FilterOp} (hm : op.isMembership = true) :
    q.perform (.filterIds field ids op) =
      q.perform (.filterValues book field (ids.map Identity.toValue) op) ↔
    ∀ id ∈ ids, book.Keeps field id.toValue := by
  cases ids with
  | nil =>
    have he : op.isExistence = false := by cases op <;> first | rfl | cases hm
    have hnil := @perform_filterIds_nil book q field op he
    rw [List.map_nil, hnil.1, hnil.2]
    exact iff_of_true rfl fun _ h => absurd h List.not_mem_nil
  | cons first rest =>
    obtain ⟨expected, hmember⟩ := Condition.exists_of_isMembership field hm
    have hatoms : ∀ v ∈ (first :: rest).map Identity.toValue, v.isAtom = true :=
      List.forall_mem_map.mpr fun id _ => id.isAtom_toValue
    have hkeeps : (∀ id ∈ first :: rest, book.Keeps field id.toValue) ↔
        ((first :: rest).map Identity.toValue).mapM (book.encodeOperand field) =
          .ok ((first :: rest).map Identity.toValue) := by
      rw [Codebook.mapM_encodeOperand_eq_self_iff hatoms, List.forall_mem_map]
    rw [hkeeps, perform, perform, filterIds?, filterValues?]
    cases hws : ((first :: rest).map Identity.toValue).mapM (book.encodeOperand field) with
    | error cause => simp [Except.toOption, hmember]
    | ok ws =>
      obtain ⟨w, ws, -, -, rfl⟩ := mapM_cons_eq_ok.mp hws
      simp [Except.toOption, hmember, (addCondition_injective q).eq_iff, eq_comm]

theorem perform_filterIds_existence_eq_iff {op : FilterOp} (he : op.isExistence = true) :
    q.perform (.filterIds field ids op) =
      q.perform (.filterValues book field (ids.map Identity.toValue) op) ↔
    ∀ id ∈ ids, book.Takes field id.toValue := by
  obtain ⟨c, -, hc⟩ := Condition.exists_of_isExistence field he
  have htakes : (∀ id ∈ ids, book.Takes field id.toValue) ↔
      ∃ ws, (ids.map Identity.toValue).mapM (book.encodeOperand field) = .ok ws := by
    rw [Codebook.exists_mapM_encodeOperand_iff, List.forall_mem_map]
  rw [htakes, perform, perform, filterIds?, filterValues?, hc]
  cases (ids.map Identity.toValue).mapM (book.encodeOperand field) <;>
    simp [Except.toOption, hc]

/-- **A test for a list of identities** is recorded alike in both ways iff the codec takes all of
them, where the test is for presence, leaves all of them, where it is for membership, and leaves
the first and takes the others, where it is a comparison. -/
theorem perform_filterIds_eq_iff {op : FilterOp} :
    q.perform (.filterIds field ids op) =
      q.perform (.filterValues book field (ids.map Identity.toValue) op) ↔
    (op.isExistence = true → ∀ id ∈ ids, book.Takes field id.toValue) ∧
      (op.isMembership = true → ∀ id ∈ ids, book.Keeps field id.toValue) ∧
      (op.isValue = true → ∀ first rest, ids = first :: rest →
        book.Keeps field first.toValue ∧ ∀ id ∈ rest, book.Takes field id.toValue) := by
  by_cases hv : op.isValue = true
  · obtain ⟨relation, rfl⟩ := FilterOp.exists_relation hv
    simp only [relation.isExistence_op, relation.isMembership_op, hv, Bool.false_eq_true,
      false_imp_iff, true_imp_iff, true_and]
    cases ids with
    | nil =>
      have hnil := @perform_filterIds_nil book q field relation.op relation.isExistence_op
      rw [List.map_nil, hnil.1, hnil.2]
      exact iff_of_true rfl fun _ _ hcons => by cases hcons
    | cons first rest =>
      rw [perform_filterIds_op_eq_iff]
      constructor
      · intro h _ _ hcons
        cases hcons
        exact h
      · exact fun h => h first rest rfl
  by_cases he : op.isExistence = true
  · have hm : op.isMembership = false := by cases op <;> first | rfl | cases he
    simp [perform_filterIds_existence_eq_iff he, he, hm, hv]
  by_cases hm : op.isMembership = true
  · simp [perform_filterIds_membership_eq_iff hm, he, hm, hv]
  · rw [Bool.not_eq_true] at hv he hm
    rw [perform, perform, filterIds?, filterValues?, Condition.ofOperands?_eq_none he hm hv]
    cases ((ids.map Identity.toValue).mapM (book.encodeOperand field)).toOption <;>
      simp [Condition.ofOperands?_eq_none he hm hv, he, hm, hv]

/-! ## Both ways -/

/-- On a field, it makes no difference in which of its two ways a call is made. -/
structure Synonymous (book : Codebook) (field : String) : Prop where
  amounts (q : Query) (v : Value) (op : UpdateOp) (h : op.isNumeric = true) :
    q.SameEffect (.update book field v op) (.updateAmount field v op)
  identities (q : Query) (id : Identity) (op : FilterOp) :
    q.SameEffect (.filterId field id op) (.filter book field id.toValue op)
  identityLists (q : Query) (ids : List Identity) (op : FilterOp) :
    q.SameEffect (.filterIds field ids op) (.filterValues book field (ids.map Identity.toValue) op)

/-- **The two ways of a call** have the same effect iff the codec of the field, if there is one,
leaves what the call needs of its operands: the amount of an arithmetic update; an identity that is
compared with, or the first of several, while it takes the others; all identities of a membership
test; a presence test needs no more than that it takes them. So it makes no difference on a field
just when its codec leaves all amounts and identities, and never does where there is no codec. -/
theorem sameEffect_synonyms_iff (book : Codebook) (field : String) :
    (∀ (q : Query) (v : Value) (op : UpdateOp), op.isNumeric = true →
      (q.SameEffect (.update book field v op) (.updateAmount field v op) ↔
        book.KeepsAmount field v)) ∧
    (∀ (q : Query) (id : Identity) (op : FilterOp),
      (q.SameEffect (.filterId field id op) (.filter book field id.toValue op) ↔
        (op.isExistence = true → book.Takes field id.toValue) ∧
          (op.isValue = true → book.Keeps field id.toValue))) ∧
    (∀ (q : Query) (ids : List Identity) (op : FilterOp),
      (q.SameEffect (.filterIds field ids op)
          (.filterValues book field (ids.map Identity.toValue) op) ↔
        (op.isExistence = true → ∀ id ∈ ids, book.Takes field id.toValue) ∧
          (op.isMembership = true → ∀ id ∈ ids, book.Keeps field id.toValue) ∧
          (op.isValue = true → ∀ first rest, ids = first :: rest →
            book.Keeps field first.toValue ∧ ∀ id ∈ rest, book.Takes field id.toValue))) ∧
    (Synonymous book field ↔
      (∀ v, book.KeepsAmount field v) ∧ ∀ id : Identity, book.Keeps field id.toValue) ∧
    (book.codecs.find? field = none → Synonymous book field) := by
  have hkept : Synonymous book field ↔
      (∀ v, book.KeepsAmount field v) ∧ ∀ id : Identity, book.Keeps field id.toValue := by
    constructor
    · intro h
      refine ⟨fun v => ?_, fun id => ?_⟩
      · have hamount := h.amounts empty v .incrementNumericalValue rfl
        rwa [sameEffect_iff, perform_update_eq_iff rfl] at hamount
      · have hid := h.identities empty id .equals
        rw [sameEffect_iff, perform_filterId_eq_iff] at hid
        exact hid.2 rfl
    · intro ⟨hamounts, hids⟩
      refine ⟨fun q v op h => ?_, fun q id op => ?_, fun q ids op => ?_⟩
      · exact sameEffect_iff.mpr ((perform_update_eq_iff h).mpr (hamounts v))
      · exact sameEffect_iff.mpr
          (perform_filterId_eq_iff.mpr ⟨fun _ => (hids id).takes, fun _ => hids id⟩)
      · exact sameEffect_iff.mpr (perform_filterIds_eq_iff.mpr
          ⟨fun _ id _ => (hids id).takes, fun _ id _ => hids id,
            fun _ first _ _ => ⟨hids first, fun id _ => (hids id).takes⟩⟩)
  refine ⟨fun q v op h => ?_, fun q id op => ?_, fun q ids op => ?_, hkept, fun hnone => ?_⟩
  · rw [sameEffect_iff, perform_update_eq_iff h]
  · rw [sameEffect_iff, perform_filterId_eq_iff]
  · rw [sameEffect_iff, perform_filterIds_eq_iff]
  · have hcodec {codec : Codec} (hc : book.codecs.find? field = some codec) : False := by
      rw [hnone] at hc
      cases hc
    exact hkept.mpr ⟨fun _ _ hc => (hcodec hc).elim, fun _ _ hc => (hcodec hc).elim⟩

/-- An arithmetic update of `stock` by 2 counts down when it is made as an update. A test for the
identity 7 in `ref` looks for a number when made with the identity, and for the document that the
codec stores for it when made with its value. -/
theorem synonyms_differ :
    let book : Codebook := { codecs := [("stock", .negation), ("ref", .wrapping)] }
    let wrapped : Value := .document [("w.v", .int64 7)]
    ((Fragments.record (.update book "stock" (.int32 2) .incrementNumericalValue)).run {} =
        (true, { updates := [⟨"stock", .incrementNumericalValue, .amount (.int32 (-2))⟩] }) ∧
      (Fragments.record (.updateAmount "stock" (.int32 2) .incrementNumericalValue)).run {} =
        (true, { updates := [⟨"stock", .incrementNumericalValue, .amount (.int32 2)⟩] })) ∧
    ((Fragments.record (.filterId "ref" (.integer 7) .equals)).run {} =
        (true, { filters := [.value "ref" .equals (.int64 7)] }) ∧
      (Fragments.record (.filter book "ref" (.int64 7) .equals)).run {} =
        (true, { filters := [.value "ref" .equals wrapped] })) ∧
    ((Fragments.record (.filterIds "ref" [.integer 7] .contains)).run {} =
        (true, { filters := [.set "ref" .contains [.int64 7]] }) ∧
      (Fragments.record (.filterValues book "ref" [.int64 7] .contains)).run {} =
        (true, { filters := [.set "ref" .contains [wrapped]] })) :=
  ⟨⟨rfl, rfl⟩, ⟨rfl, rfl⟩, rfl, rfl⟩

end Query

end Dossier
