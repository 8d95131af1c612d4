import Mathlib
import Dossier.Proofs.Codebook.Operands
import Dossier.Proofs.Fragment.Recording

/-!
# Calls with the same effect

Two calls have the same effect on a query when they give the same answer and leave the same
fragments. Fragments tell queries apart, so that is to say that they make the same query.

* `Query.fragments_injective`: a query is determined by its fragments;
* **`Query.SameEffect`**, **`Query.sameEffect_iff`**: the same effect in place, and on queries;
* `Codebook.Takes`, `Codebook.Keeps`, `Codebook.KeepsAmount`: what the codec of a field does to an
  operand, if there is one; `Codebook.exists_encodeOperand_iff`, `Codebook.encodeOperand_eq_self_iff`,
  `Codebook.amount_encodeOperand_iff`: whether an operand is stored, as it is, or as the same amount;
* `Codebook.exists_mapM_encodeOperand_iff`, `Codebook.mapM_encodeOperand_eq_self_iff`: the same for
  lists of operands.
-/

namespace Dossier

/-! ## Queries by their fragments -/

theorem Relation.op_injective : Function.Injective Relation.op := by
  intro a b h
  have hrelation := congrArg FilterOp.relation? h
  rwa [relation?_op, relation?_op, Option.some.injEq] at hrelation

mutual

theorem Condition.fragment_inj {c c' : Condition} (h : c.fragment = c'.fragment) : c = c' := by
  match c, c' with
  | .compare field relation operand, .compare field' relation' operand' =>
    rw [fragment, fragment, FilterFragment.value.injEq] at h
    rw [h.1, Relation.op_injective h.2.1, h.2.2]
  | .present field expected, .present field' expected' =>
    cases expected <;> cases expected' <;> simp_all [fragment, FilterFragment.presence]
  | .member field operands expected, .member field' operands' expected' =>
    cases expected <;> cases expected' <;> simp_all [fragment, FilterFragment.membership]
  | .element field conditions, .element field' conditions' =>
    rw [fragment, fragment, FilterFragment.element.injEq] at h
    rw [h.1, Condition.fragments_inj h.2.2]
  | .compare .., .present .. | .compare .., .member .. | .compare .., .element .. => cases h
  | .present .., .compare .. | .present .., .member .. | .present .., .element .. => cases h
  | .member .., .compare .. | .member .., .present .. | .member .., .element .. => cases h
  | .element .., .compare .. | .element .., .present .. | .element .., .member .. => cases h

theorem Condition.fragments_inj {cs cs' : List Condition}
    (h : Condition.fragments cs = Condition.fragments cs') : cs = cs' := by
  match cs, cs' with
  | [], [] => rfl
  | c :: rest, c' :: rest' =>
    rw [fragments, fragments, List.cons.injEq] at h
    rw [Condition.fragment_inj h.1, Condition.fragments_inj h.2]
  | [], _ :: _ | _ :: _, [] => cases h

end

theorem Change.eq_of_op_eq {a b : Change} (hop : a.op = b.op) (h : a.operand = b.operand) :
    a = b := by
  have hmatching {cs cs' : List Condition} :
      Condition.fragments cs = Condition.fragments cs' ↔ cs = cs' :=
    ⟨Condition.fragments_inj, congrArg _⟩
  cases a <;> cases b <;> first | (cases hop; done) | simp_all [operand]

theorem Update.fragment_inj {u u' : Update} (h : u.fragment = u'.fragment) : u = u' := by
  obtain ⟨field, change⟩ := u
  obtain ⟨field', change'⟩ := u'
  obtain ⟨hfield, hop, hoperand⟩ := UpdateFragment.mk.inj h
  exact congrArg₂ mk hfield (Change.eq_of_op_eq hop hoperand)

namespace Query

/-- **What calls record determines the query.** -/
theorem fragments_injective : Function.Injective fragments := by
  intro ⟨conditions, updates, bindings⟩ ⟨conditions', updates', bindings'⟩ h
  obtain ⟨hconditions, hupdates, hbindings⟩ := Fragments.mk.inj h
  obtain rfl : conditions = conditions' :=
    List.map_injective_iff.mpr (fun _ _ => Condition.fragment_inj) hconditions
  obtain rfl : updates = updates' :=
    List.map_injective_iff.mpr (fun _ _ => Update.fragment_inj) hupdates
  exact congrArg (mk conditions updates) hbindings

/-! ## The same effect -/

/-- Whether two calls on a query give the same answer and leave the same fragments. -/
def SameEffect (q : Query) (a b : Call) : Prop :=
  (Fragments.record a).run q.fragments = (Fragments.record b).run q.fragments

/-- **Calls have the same effect** iff both are refused or both make the same query. -/
theorem sameEffect_iff {q : Query} {a b : Call} : q.SameEffect a b ↔ q.perform a = q.perform b := by
  rw [SameEffect, Fragments.run_record_fragments, Fragments.run_record_fragments, Prod.mk.injEq]
  cases q.perform a <;> cases q.perform b <;> simp [fragments_injective.eq_iff]

end Query

/-! ## What a codec does to an operand -/

/-- Turns the sign of 32-bit integers, and refuses all other values. -/
def Codec.negation : Codec :=
  let negate : Value → Except StoreError Value
    | .int32 n => .ok (.int32 (-n))
    | _ => .error (.invalidDocument (.rejected "not an int32"))
  ⟨negate, negate⟩

namespace Codebook

variable {book : Codebook} {field : String} {v w : Value}

/-- Whether the codec of a field, if there is one, accepts a value. -/
def Takes (book : Codebook) (field : String) (v : Value) : Prop :=
  ∀ codec, book.codecs.find? field = some codec → ∃ w, codec.encode v = .ok w

/-- Whether the codec of a field, if there is one, leaves a value as it is. -/
def Keeps (book : Codebook) (field : String) (v : Value) : Prop :=
  ∀ codec, book.codecs.find? field = some codec → codec.encode v = .ok v

/-- Whether the codec of a field, if there is one, leaves the amount that a value is, and makes no
amount of a value that is none. -/
def KeepsAmount (book : Codebook) (field : String) (v : Value) : Prop :=
  ∀ codec, book.codecs.find? field = some codec →
    (codec.encode v).toOption.bind Amount.ofValue? = Amount.ofValue? v

theorem Keeps.takes (h : book.Keeps field v) : book.Takes field v := fun codec hc => ⟨v, h codec hc⟩

theorem exists_encodeOperand_iff :
    (∃ w, book.encodeOperand field v = .ok w) ↔ book.Takes field v := by
  rw [encodeOperand_eq, encodeAt]
  simp only [map_eq_ok, Takes]
  cases book.codecs.find? field <;> simp

theorem keyed_of_isAtom (hv : v.isAtom = true) : book.keyed v = v := by
  rw [keyed]
  split
  · cases v <;> first | rfl | cases hv
  · rfl

theorem isAtom_keyed (w : Value) : (book.keyed w).isAtom = w.isAtom := by
  rw [keyed]
  split
  · cases w <;> rfl
  · rfl

theorem keyed_eq_iff_of_isAtom (hv : v.isAtom = true) : book.keyed w = v ↔ w = v := by
  constructor
  · intro h
    have hw : w.isAtom = true := by rw [← @isAtom_keyed book, h, hv]
    rwa [keyed_of_isAtom hw] at h
  · rintro rfl
    exact keyed_of_isAtom hv

theorem encodeOperand_eq_self_iff (hv : v.isAtom = true) :
    book.encodeOperand field v = .ok v ↔ book.Keeps field v := by
  rw [encodeOperand_eq, encodeAt]
  simp only [map_eq_ok, Keeps, keyed_eq_iff_of_isAtom hv]
  cases book.codecs.find? field <;> simp

theorem ofValue?_keyed (v : Value) : Amount.ofValue? (book.keyed v) = Amount.ofValue? v := by
  rw [keyed]
  split
  · cases v <;> rfl
  · rfl

theorem amount_encodeOperand_iff :
    (book.encodeOperand field v).toOption.bind Amount.ofValue? = Amount.ofValue? v ↔
      book.KeepsAmount field v := by
  have hkeyed (stored : Except StoreError Value) :
      (stored.map book.keyed).toOption.bind Amount.ofValue? =
        stored.toOption.bind Amount.ofValue? := by
    cases stored with
    | error cause => rfl
    | ok w => exact ofValue?_keyed w
  rw [encodeOperand_eq, hkeyed, encodeAt, KeepsAmount]
  cases book.codecs.find? field with
  | none => simp [Except.toOption]
  | some codec => simp

end Codebook

/-! ## Lists of operands -/

theorem mapM_cons_eq_ok {ε α β : Type} {f : α → Except ε β} {x : α} {xs : List α} {ys : List β} :
    (x :: xs).mapM f = .ok ys ↔
      ∃ y rest, f x = .ok y ∧ xs.mapM f = .ok rest ∧ ys = y :: rest := by
  rw [List.mapM_cons, bind_eq_ok]
  simp only [bind_eq_ok]
  constructor
  · rintro ⟨y, hy, rest, hrest, h⟩
    cases h
    exact ⟨y, rest, hy, hrest, rfl⟩
  · rintro ⟨y, rest, hy, hrest, rfl⟩
    exact ⟨y, hy, rest, hrest, rfl⟩

namespace Codebook

variable {book : Codebook} {field : String}

theorem exists_mapM_encodeOperand_iff {vs : List Value} :
    (∃ ws, vs.mapM (book.encodeOperand field) = .ok ws) ↔ ∀ v ∈ vs, book.Takes field v := by
  induction vs with
  | nil => exact iff_of_true ⟨[], rfl⟩ fun _ h => absurd h List.not_mem_nil
  | cons v rest ih =>
    rw [List.forall_mem_cons, ← ih, ← exists_encodeOperand_iff]
    simp only [mapM_cons_eq_ok]
    constructor
    · rintro ⟨_, w, ws, hw, hws, -⟩
      exact ⟨⟨w, hw⟩, ws, hws⟩
    · rintro ⟨⟨w, hw⟩, ws, hws⟩
      exact ⟨_, w, ws, hw, hws, rfl⟩

theorem mapM_encodeOperand_eq_self_iff {vs : List Value} (hvs : ∀ v ∈ vs, v.isAtom = true) :
    vs.mapM (book.encodeOperand field) = .ok vs ↔ ∀ v ∈ vs, book.Keeps field v := by
  induction vs with
  | nil => exact iff_of_true rfl fun _ h => absurd h List.not_mem_nil
  | cons v rest ih =>
    rw [List.forall_mem_cons] at hvs ⊢
    rw [← ih hvs.2, ← encodeOperand_eq_self_iff hvs.1, mapM_cons_eq_ok]
    constructor
    · rintro ⟨w, ws, hw, hws, h⟩
      cases h
      exact ⟨hw, hws⟩
    · exact fun ⟨hv, hrest⟩ => ⟨v, rest, hv, hrest, rfl⟩

end Codebook

end Dossier
