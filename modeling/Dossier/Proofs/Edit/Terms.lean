import Mathlib
import Dossier.Proofs.Edit.OneKey
import Dossier.Proofs.Memory.Writes
import Dossier.Proofs.Value.Integer

/-!
# Integer arithmetic on stored numbers

Sums and products of integers are computed exactly. A result that does not fit 32 bits moves on to 64
bits, where the field stays, and a result that does not fit 64 bits is a failure.

* **`Amount.combine?_integer`**: one operation on integers is exact;
* `Term`, `Term.results`, `Term.total`: an operation with an integer operand, and the numbers that a
  list of them leads to;
* **`Term.next_cases`**: what one term makes of an integer, and `Term.yields_start`, `Term.yields_some`:
  what the update by it does to a field;
* **`Term.Exact`**, `Term.run_exact`, `Term.run_overflow`: what terms make of an integer one after the
  other;
* **`Query.edit_arithmetic`**: an edit by terms on one field succeeds iff all results fit 64 bits,
  and is exact then.
-/

namespace Dossier

/-- **One operation on integers is exact**, in 32 bits only if both operands have 32 bits. -/
theorem Amount.combine?_integer (operation : Arithmetic) (a b : Integer) :
    a.toAmount.combine? operation b.toAmount =
      (Integer.of? (a.isShort && b.isShort) (operation.onInt a.toInt b.toInt)).map
        Integer.toAmount := by
  cases a <;> cases b
  case int32.int32 a b =>
    simp only [Integer.toAmount, Integer.isShort, Integer.toInt, Integer.of?, combine?,
      Bool.and_self, true_and]
    cases h : Width.int32? (operation.onInt a.toInt b.toInt) with
    | none => simp [Width.int32?_eq_none_iff.mp h, Integer.toAmount, Function.comp_def]
    | some n =>
      have hn := Width.int32?_eq_some_iff.mp h
      simp [← hn, Width.fits32_toInt, Integer.toAmount]
  all_goals
    simp only [Integer.isShort, Integer.of?, Bool.and_false, Bool.false_and, Bool.false_eq_true,
      false_and, if_false, Option.map_map]
    rfl

/-! ## Terms -/

/-- An operation with an integer operand. -/
structure Term where
  operation : Arithmetic
  operand : Integer

namespace Term

/-- The number that a term makes of a number. -/
def on (t : Term) (n : Int) : Int := t.operation.onInt n t.operand.toInt

/-- The change that a term is as an update. -/
def change : Term → Change
  | ⟨.sum, operand⟩ => .increment operand.toAmount
  | ⟨.product, operand⟩ => .multiply operand.toAmount

/-- The update of a field by a term. -/
def update (field : String) (t : Term) : Update := ⟨field, t.change⟩

theorem ofOperator?_op (t : Term) :
    Change.ofOperator? t.operation.op t.operand.toValue = some t.change := by
  obtain ⟨operation, operand⟩ := t
  cases operation <;>
    simp only [Arithmetic.op, Change.ofOperator?, Integer.ofValue?_toValue, Option.map_some, change]

/-- The numbers that terms lead to from `n`, one after the other. -/
def results (n : Int) : List Term → List Int
  | [] => []
  | t :: rest => t.on n :: results (t.on n) rest

/-- The number that terms lead to in the end. -/
def total (n : Int) (terms : List Term) : Int := terms.foldl (fun n t => t.on n) n

/-- What a term makes of the integer in a field: one of 32 bits only from two of 32 bits. -/
def next (field : String) (a : Integer) (t : Term) : Except UpdateError Integer :=
  match Integer.of? (a.isShort && t.operand.isShort) (t.on a.toInt) with
  | some b => .ok b
  | none => .error (.overflow field)

variable {field : String} {a b : Integer} {t : Term} {terms : List Term}

/-! ## One term -/

theorem result_eq_next (t : Term) (field : String) (a : Integer) :
    t.operation.result field (some a.toValue) t.operand.toAmount =
      (next field a t).map Integer.toAmount := by
  have hheld : t.operation.held field t.operand.toAmount.zero (some a.toValue) =
      .ok a.toAmount := by
    rw [Arithmetic.held, Integer.ofValue?_toValue]
  rw [Arithmetic.result, if_neg (by simp), hheld]
  simp only [bind, Except.bind, Amount.combine?_integer, next, on]
  cases Integer.of? (a.isShort && t.operand.isShort) (t.operation.onInt a.toInt t.operand.toInt) <;>
    rfl

/-- A missing field counts as a zero in as many bits as the operand. -/
theorem result_none (t : Term) (field : String) :
    t.operation.result field none t.operand.toAmount =
      (next field t.operand.zero t).map Integer.toAmount := by
  obtain ⟨operation, operand⟩ := t
  cases operation with
  | sum =>
    rw [Arithmetic.result, if_neg (by simp), Arithmetic.held, Integer.zero_toAmount]
    simp only [bind, Except.bind, Amount.combine?_integer, next, on]
    cases Integer.of? (operand.zero.isShort && operand.isShort)
      (Arithmetic.sum.onInt operand.zero.toInt operand.toInt) <;> rfl
  | product =>
    have hzero : Integer.of? (operand.zero.isShort && operand.isShort)
        (Term.on ⟨.product, operand⟩ operand.zero.toInt) = some operand.zero := by
      rw [Integer.of?_eq_some_iff]
      simp [on, Arithmetic.onInt, Width.Fits32]
    rw [Arithmetic.result, if_pos (by simp), next, hzero, Integer.zero_toAmount]
    rfl

theorem effect_update (t : Term) (field : String) (child : Option Value) :
    (t.update field).change.effect (t.update field).field child =
      (t.operation.result field child t.operand.toAmount).map fun r => .fill r.toValue := by
  obtain ⟨operation, operand⟩ := t
  cases operation with
  | sum =>
    simp only [update, change, Change.effect]
    cases Arithmetic.sum.result field child operand.toAmount <;> rfl
  | product =>
    simp only [update, change, Change.effect]
    cases Arithmetic.product.result field child operand.toAmount <;> rfl

/-- **An update by a term** puts the next integer into the field, or fails with it. -/
theorem yields_of_result (held : Option Integer)
    (hresult : t.operation.result field (held.map Integer.toValue) t.operand.toAmount =
      (next field a t).map Integer.toAmount) :
    (t.update field).Yields (held.map Integer.toValue)
      ((next field a t).map Integer.toValue) := by
  have heffect := effect_update t field (held.map Integer.toValue)
  rw [hresult] at heffect
  cases hnext : next field a t with
  | error cause =>
    rw [hnext] at heffect
    exact .of_error heffect
  | ok b =>
    rw [hnext] at heffect
    simp only [Except.map, Integer.toValue_toAmount] at heffect
    exact .of_fill heffect (Integer.eq_of_same_map held b)

theorem yields_some (t : Term) (field : String) (a : Integer) :
    (t.update field).Yields (some a.toValue) ((next field a t).map Integer.toValue) :=
  yields_of_result (some a) (result_eq_next t field a)

theorem yields_start (t : Term) (field : String) (start : Option Integer) :
    (t.update field).Yields (start.map Integer.toValue)
      ((next field (start.getD t.operand.zero) t).map Integer.toValue) := by
  cases start with
  | none => exact yields_of_result none (result_none t field)
  | some a => exact yields_some t field a

/-- **What one term does**: it gives the exact number, or the number does not fit 64 bits. -/
theorem next_cases (field : String) (a : Integer) (t : Term) :
    (Width.Fits64 (t.on a.toInt) ∧ ∃ b, next field a t = .ok b ∧ b.toInt = t.on a.toInt ∧
      (b.isShort = true ↔
        (a.isShort = true ∧ t.operand.isShort = true) ∧ Width.Fits32 (t.on a.toInt))) ∨
    (¬ Width.Fits64 (t.on a.toInt) ∧ next field a t = .error (.overflow field)) := by
  rw [next]
  cases h : Integer.of? (a.isShort && t.operand.isShort) (t.on a.toInt) with
  | none => exact .inr ⟨Integer.of?_eq_none_iff.mp h, rfl⟩
  | some b =>
    obtain ⟨hint, hshort⟩ := Integer.of?_eq_some_iff.mp h
    rw [Bool.and_eq_true] at hshort
    exact .inl ⟨hint ▸ b.fits64, b, rfl, hint, hshort⟩

/-! ## Terms one after the other -/

/-- Whether terms make `b` of `a`: the exact number, in 32 bits just when nothing on the way needed
more. -/
structure Exact (a : Integer) (terms : List Term) (b : Integer) : Prop where
  number : b.toInt = total a.toInt terms
  short : b.isShort = true ↔ a.isShort = true ∧ (∀ t ∈ terms, t.operand.isShort = true) ∧
    ∀ n ∈ results a.toInt terms, Width.Fits32 n

/-- **Terms are exact** as long as all results fit 64 bits. -/
theorem run_exact (field : String) (h : ∀ n ∈ results a.toInt terms, Width.Fits64 n) :
    ∃ b, terms.foldlM (next field) a = .ok b ∧ Exact a terms b := by
  induction terms generalizing a with
  | nil => exact ⟨a, rfl, rfl, by simp [results]⟩
  | cons t rest ih =>
    rw [results, List.forall_mem_cons] at h
    obtain ⟨-, b, hnext, hint, hshort⟩ | ⟨hbeyond, -⟩ := next_cases field a t
    case inr => exact absurd h.1 hbeyond
    rw [← hint] at h
    obtain ⟨c, hrun, hexact⟩ := ih h.2
    refine ⟨c, ?_, ?_, ?_⟩
    · rw [List.foldlM_cons, hnext]
      exact hrun
    · rw [hexact.number, hint]
      rfl
    · rw [hexact.short, hshort, results, List.forall_mem_cons, List.forall_mem_cons, hint]
      tauto

/-- **A result beyond 64 bits is a failure**, whatever follows it. -/
theorem run_overflow (field : String) (h : ¬ ∀ n ∈ results a.toInt terms, Width.Fits64 n) :
    terms.foldlM (next field) a = .error (.overflow field) := by
  induction terms generalizing a with
  | nil => exact absurd (by simp [results]) h
  | cons t rest ih =>
    rw [results, List.forall_mem_cons] at h
    rw [List.foldlM_cons]
    obtain ⟨hfits, b, hnext, hint, -⟩ | ⟨-, hnext⟩ := next_cases field a t
    · rw [hnext]
      exact ih fun hrest => h ⟨hfits, hint ▸ hrest⟩
    · rw [hnext]
      rfl

end Term

/-! ## Edits by terms -/

namespace Query

variable {q : Query} {d : Document} {f : String} {start : Option Integer} {first : Term}
  {rest : List Term}

section Field

variable (hkey : IsKey f) (hd : d.find? f = start.map Integer.toValue)
  (hq : q.updates = (first :: rest).map (Term.update f))

include hkey hd hq

theorem map_fst_edit_terms : (q.edit d).map Prod.fst =
    ((first :: rest).foldlM (Term.next f) (start.getD first.operand.zero)).map fun b =>
      d.insert f b.toValue :=
  edit_of_first hkey (fun _ => rfl) hq (fun a t => t.yields_some f a)
    (hd ▸ first.yields_start f start)

theorem edit_of_fits
    (h : ∀ n ∈ Term.results (start.getD first.operand.zero).toInt (first :: rest), Width.Fits64 n) :
    ∃ b changed, Term.Exact (start.getD first.operand.zero) (first :: rest) b ∧
      q.edit d = .ok (d.insert f b.toValue, changed) := by
  obtain ⟨b, hb, hexact⟩ := Term.run_exact f h
  have hrun := map_fst_edit_terms hkey hd hq
  rw [hb] at hrun
  obtain ⟨⟨d', changed⟩, hedit, rfl⟩ := map_eq_ok.mp hrun
  exact ⟨b, changed, hexact, hedit⟩

theorem edit_of_overflow
    (h : ¬ ∀ n ∈ Term.results (start.getD first.operand.zero).toInt (first :: rest),
      Width.Fits64 n) : q.edit d = .error (.overflow f) := by
  have hrun := map_fst_edit_terms hkey hd hq
  rw [Term.run_overflow f h] at hrun
  exact map_eq_error.mp hrun

end Field

/-- **Integer arithmetic is exact or fails.** A query whose updates are sums and products on one
field, which holds an integer or nothing, succeeds iff every number on the way fits 64 bits. The
field then holds the exact number, and else nothing is changed. -/
theorem edit_arithmetic (hkey : IsKey f) (hd : d.find? f = start.map Integer.toValue)
    (hq : q.updates = (first :: rest).map (Term.update f)) :
    let a := start.getD first.operand.zero
    let terms := first :: rest
    ((∃ d' changed, q.edit d = .ok (d', changed)) ↔
      ∀ n ∈ Term.results a.toInt terms, Width.Fits64 n) ∧
    (∀ d' changed, q.edit d = .ok (d', changed) →
      ∃ b, Term.Exact a terms b ∧ d' = d.insert f b.toValue) ∧
    ∀ cause, q.edit d = .error cause → cause = .overflow f ∧
      ∀ (memory : Memory) name before after,
        FirstMatch q (memory.documents name) before d after →
        (Memory.backend.update q name).perform memory = (Memory.raise (.error cause), memory) ∧
        (Memory.backend.findAndUpdate q name).perform memory =
          (Memory.raise (.error cause), memory) := by
  intro a terms
  by_cases hfits : ∀ n ∈ Term.results a.toInt terms, Width.Fits64 n
  · obtain ⟨b, changed, hexact, hedit⟩ := edit_of_fits hkey hd hq hfits
    refine ⟨⟨fun _ => hfits, fun _ => ⟨_, changed, hedit⟩⟩, fun d' acted h => ?_, fun cause h => ?_⟩
    · cases hedit.symm.trans h
      exact ⟨b, hexact, rfl⟩
    · cases hedit.symm.trans h
  · have herror := edit_of_overflow hkey hd hq hfits
    refine ⟨⟨fun hsuccess => ?_, fun h => absurd h hfits⟩, fun d' acted h => ?_, fun cause h => ?_⟩
    · obtain ⟨d', acted, h⟩ := hsuccess
      cases herror.symm.trans h
    · cases herror.symm.trans h
    · cases herror.symm.trans h
      exact ⟨rfl, fun memory name before after hfirst =>
        ⟨Memory.updateStep_of_edit_error _ hfirst herror,
          Memory.updateStep_of_edit_error _ hfirst herror⟩⟩

/-- One more than the greatest integer of 32 bits is kept in 64 bits, and so is what follows. -/
theorem edit_arithmetic_beyond_32_bits :
    let d : Document := [("count", .int32 2147483647)]
    let terms : List Term := [⟨.sum, .int32 1⟩, ⟨.product, .int32 0⟩]
    IsKey "count" ∧ d.find? "count" = some (.int32 2147483647) ∧
      ∃ changed, ({ updates := terms.map (Term.update "count") } : Query).edit d =
        .ok ([("count", .int64 0)], changed) := by
  intro d terms
  have hkey : IsKey "count" := rfl
  have hd : d.find? "count" = (some (Integer.int32 2147483647)).map Integer.toValue := rfl
  obtain ⟨hsuccess, hexact, -⟩ :=
    edit_arithmetic (q := { updates := terms.map (Term.update "count") }) hkey hd rfl
  obtain ⟨d', changed, hedit⟩ := hsuccess.mpr (by decide)
  obtain ⟨b, ⟨hnumber, hshort⟩, rfl⟩ := hexact d' changed hedit
  have hlong : b.isShort = false :=
    Bool.eq_false_iff.mpr fun h => absurd (hshort.mp h) (by decide)
  obtain rfl : b = .int64 0 := Integer.ext hnumber hlong
  exact ⟨hkey, hd, changed, hedit⟩

example :
    ({ updates := [Term.update "count" ⟨.product, .int32 2⟩, Term.update "count" ⟨.sum, .int32 1⟩] } :
      Query).edit [("count", .int64 4611686018427387904)] = .error (.overflow "count") := rfl

end Query

end Dossier
