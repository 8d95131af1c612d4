import Mathlib
import Dossier.Text.Numeral

/-!
# Reading back decimal numerals

* `Numeral.digit?_of_isDigit`, `Numeral.digitsFrom_eq`: a run of digits stands for the number that
  the library reads from it;
* `Numeral.eq_zero_of_head?_toDigits`: there is no leading zero;
* **`Numeral.digits?_toDigits`**: the digits of a natural number are read back;
* `Numeral.toList_toString`, **`Numeral.integer?_toString`**: so is the text of an integer, with its
  sign.
-/

namespace Dossier

namespace Numeral

theorem digit?_of_isDigit {c : Char} (h : c.isDigit = true) :
    digit? c = some (c.toNat - '0'.toNat) := by
  simp only [Char.isDigit, Bool.and_eq_true, decide_eq_true_eq] at h
  exact if_pos h

theorem digitsFrom_eq {cs : List Char} (h : ∀ c ∈ cs, c.isDigit = true) (acc : ℕ) :
    digitsFrom acc cs = some (Nat.ofDigitChars 10 cs acc) := by
  induction cs generalizing acc with
  | nil => rw [digitsFrom, Nat.ofDigitChars_nil]
  | cons c cs ih =>
    rw [List.forall_mem_cons] at h
    rw [digitsFrom, digit?_of_isDigit h.1, Option.bind_some, ih h.2, Nat.ofDigitChars_cons,
      Nat.mul_comm]

theorem isDigit_of_mem_toDigits {n : ℕ} : ∀ c ∈ Nat.toDigits 10 n, c.isDigit = true :=
  fun _ hc => Nat.isDigit_of_mem_toDigits (by norm_num) le_rfl hc

theorem eq_zero_of_head?_toDigits {n : ℕ} (h : (Nat.toDigits 10 n).head? = some '0') : n = 0 := by
  induction n using Nat.strongRecOn with
  | ind n ih =>
    rw [Nat.toDigits_eq_if (by norm_num)] at h
    split at h
    case isTrue hn => interval_cases n <;> first | rfl | exact absurd h (by decide)
    case isFalse hn =>
      rw [List.head?_append_of_ne_nil _ Nat.toDigits_ne_nil] at h
      have := ih (n / 10) (by omega) h
      omega

/-- **The digits of a natural number are read back** as the number. -/
theorem digits?_toDigits (n : ℕ) : digits? (Nat.toDigits 10 n) = some n := by
  have hread : digitsFrom 0 (Nat.toDigits 10 n) = some n := by
    rw [digitsFrom_eq isDigit_of_mem_toDigits, Nat.ofDigitChars_ten_toDigits]
  cases hcs : Nat.toDigits 10 n with
  | nil => exact absurd hcs Nat.toDigits_ne_nil
  | cons c cs => rw [← hread, hcs, digits?]; simp

theorem toList_toString (n : ℤ) :
    (toString n).toList =
      if n < 0 then '-' :: Nat.toDigits 10 n.natAbs else Nat.toDigits 10 n.natAbs := by
  rw [Int.toString_eq_repr, Int.repr_eq_if]
  by_cases hn : n < 0
  · rw [if_neg (by omega), if_pos hn, String.toList_append, Nat.toList_repr,
      show (-n).toNat = n.natAbs by omega]
    rfl
  · rw [if_pos (by omega), if_neg hn, Nat.toList_repr, show n.toNat = n.natAbs by omega]

theorem eq_or_isDigit_of_mem_toString {n : ℤ} {c : Char} (h : c ∈ (toString n).toList) :
    c = '-' ∨ c.isDigit = true := by
  rw [toList_toString] at h
  split at h
  · exact (List.mem_cons.mp h).imp_right (isDigit_of_mem_toDigits c)
  · exact .inr (isDigit_of_mem_toDigits c h)

theorem unsigned_toDigits (n : ℕ) :
    unsigned (Nat.toDigits 10 n) = (false, Nat.toDigits 10 n) := by
  have hdigits := isDigit_of_mem_toDigits (n := n)
  unfold unsigned
  split
  case h_1 cs h => exact absurd (hdigits '-' (h ▸ List.mem_cons_self)) (by decide)
  case h_2 cs h => exact absurd (hdigits '+' (h ▸ List.mem_cons_self)) (by decide)
  case h_3 => rfl

/-- **The text of an integer is read back** as the integer. -/
theorem integer?_toString (n : ℤ) : integer? (toString n) = some n := by
  rw [integer?, toList_toString]
  by_cases hn : n < 0
  · have hsize : |n| = -n := abs_of_neg hn
    simp [hn, signed?, unsigned, digits?_toDigits, hsize]
  · have hsize : |n| = n := abs_of_nonneg (by omega)
    simp [hn, signed?, unsigned_toDigits, digits?_toDigits, hsize]

end Numeral

end Dossier
