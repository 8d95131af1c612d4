import Mathlib
import Dossier.Edit.Arithmetic

/-!
# Integers as values

Numbers without a fraction are stored in 32 or in 64 bits.

* `Width.Fits32`, `Width.Fits64`: whether a number fits, and when a word for it is found;
* **`Integer`**: an integer as it is stored, determined by its number and its width
  (`Integer.ext`, `Integer.eq_of_same`);
* **`Integer.of?`**: the one that stands for a number (`of?_eq_some_iff`, `of?_eq_none_iff`).
-/

namespace Dossier

/-! ## Numbers that fit -/

namespace Width

/-- Whether an integer fits 32 bits. -/
def Fits32 (n : Int) : Prop := -0x80000000 ≤ n ∧ n < 0x80000000

/-- Whether an integer fits 64 bits. -/
def Fits64 (n : Int) : Prop := -0x8000000000000000 ≤ n ∧ n < 0x8000000000000000

instance (n : Int) : Decidable (Fits32 n) := inferInstanceAs (Decidable (_ ∧ _))

instance (n : Int) : Decidable (Fits64 n) := inferInstanceAs (Decidable (_ ∧ _))

theorem Fits32.fits64 {n : Int} (h : Fits32 n) : Fits64 n := by
  unfold Fits32 at h
  unfold Fits64
  omega

theorem fits32_toInt (w : Int32) : Fits32 w.toInt := ⟨w.le_toInt, w.toInt_lt⟩

theorem fits64_toInt (w : Int64) : Fits64 w.toInt := ⟨w.le_toInt, w.toInt_lt⟩

theorem int32?_eq_none_iff {n : Int} : int32? n = none ↔ ¬ Fits32 n := by
  rw [int32?, Fits32, ite_eq_right_iff]
  simp

theorem int64?_eq_none_iff {n : Int} : int64? n = none ↔ ¬ Fits64 n := by
  rw [int64?, Fits64, ite_eq_right_iff]
  simp

theorem int32?_eq_some_iff {n : Int} {w : Int32} : int32? n = some w ↔ w.toInt = n := by
  constructor
  · intro h
    unfold int32? at h
    split at h
    · cases h
      exact Int32.toInt_ofInt_of_le (by omega) (by omega)
    · contradiction
  · rintro rfl
    have hlo := w.le_toInt
    have hhi := w.toInt_lt
    rw [int32?, if_pos (by omega), Int32.ofInt_toInt]

theorem int64?_eq_some_iff {n : Int} {w : Int64} : int64? n = some w ↔ w.toInt = n :=
  ⟨toInt_of_int64?, fun h => h ▸ int64?_toInt w⟩

end Width

/-! ## Stored integers -/

/-- An integer in 32 or 64 bits. -/
inductive Integer where
  | int32 (n : Int32)
  | int64 (n : Int64)
  deriving DecidableEq, Repr

namespace Integer

/-- The number. -/
def toInt : Integer → Int
  | int32 n => n.toInt
  | int64 n => n.toInt

/-- The integer as a value. -/
def toValue : Integer → Value
  | int32 n => .int32 n
  | int64 n => .int64 n

/-- The integer as an operand of arithmetic. -/
def toAmount : Integer → Amount
  | int32 n => .int32 n
  | int64 n => .int64 n

/-- Whether the integer is kept in 32 bits. -/
def isShort : Integer → Bool
  | int32 _ => true
  | int64 _ => false

/-- Zero in as many bits. -/
def zero : Integer → Integer
  | int32 _ => int32 0
  | int64 _ => int64 0

@[simp] theorem toValue_toAmount (a : Integer) : a.toAmount.toValue = a.toValue := by
  cases a <;> rfl

@[simp] theorem ofValue?_toValue (a : Integer) : Amount.ofValue? a.toValue = some a.toAmount := by
  cases a <;> rfl

@[simp] theorem zero_toAmount (a : Integer) : a.toAmount.zero = a.zero.toAmount := by
  cases a <;> rfl

@[simp] theorem toInt_zero (a : Integer) : a.zero.toInt = 0 := by cases a <;> rfl

@[simp] theorem isShort_zero (a : Integer) : a.zero.isShort = a.isShort := by cases a <;> rfl

theorem fits64 (a : Integer) : Width.Fits64 a.toInt := by
  cases a with
  | int32 n => exact (Width.fits32_toInt n).fits64
  | int64 n => exact Width.fits64_toInt n

theorem ext {a b : Integer} (hint : a.toInt = b.toInt) (hshort : a.isShort = b.isShort) : a = b := by
  cases a <;> cases b <;> try cases hshort
  case int32.int32 => exact congrArg int32 (Int32.toInt_inj.mp hint)
  case int64.int64 => exact congrArg int64 (Int64.toInt_inj.mp hint)

theorem eq_of_same {a b : Integer} (h : a.toValue.same b.toValue = true) : a = b := by
  cases a <;> cases b <;> try cases h
  case int32.int32 a b => exact congrArg int32 (eq_of_beq h)
  case int64.int64 a b => exact congrArg int64 (eq_of_beq h)

theorem eq_of_same_map (start : Option Integer) (b : Integer) :
    ∀ held, start.map toValue = some held → held.same b.toValue = true → held = b.toValue := by
  intro held hheld hsame
  obtain ⟨a, -, rfl⟩ := Option.map_eq_some_iff.mp hheld
  rw [eq_of_same hsame]

/-- The integer for a number: in 32 bits if it may be `short` and fits them, else in 64 bits. -/
def of? (short : Bool) (n : Int) : Option Integer :=
  if short = true ∧ Width.Fits32 n then (Width.int32? n).map int32 else (Width.int64? n).map int64

theorem of?_eq_some_iff {short : Bool} {n : Int} {a : Integer} :
    of? short n = some a ↔
      a.toInt = n ∧ (a.isShort = true ↔ short = true ∧ Width.Fits32 n) := by
  rw [of?]
  split
  case isTrue h =>
    cases a <;> simp [h, toInt, isShort, Width.int32?_eq_some_iff]
  case isFalse h =>
    cases a <;> simp [h, toInt, isShort, Width.int64?_eq_some_iff]

theorem of?_eq_none_iff {short : Bool} {n : Int} : of? short n = none ↔ ¬ Width.Fits64 n := by
  rw [of?]
  split
  case isTrue h => simp [Width.int32?_eq_none_iff, h.2, h.2.fits64]
  case isFalse => simp [Width.int64?_eq_none_iff]

end Integer

end Dossier
