import Mathlib
import Dossier.Number.Double

/-!
# Integers with the same nearest double

Filters compare integers by the rank of the nearest double. Between powers of two the doubles are
evenly spaced, and a tie goes to the even neighbour.

* `Double.roundedQuotient`, `shiftRound_eq`: rounding, from a quotient and a remainder;
* `bitsOfNat_eq`: the bits of the double nearest to a number of more than 53 bits;
* `eq_of_bitsOfNat_eq`: an isolated number shares its nearest double with no other;
* `exists_bitsOfNat_eq`: every other number does share it, with a neighbour;
* **`rankOfInt_injective_iff`**: a 64-bit integer is the only one of its rank iff it is `Isolated`:
  below `2 ^ 53` in magnitude, or below `2 ^ 54` and twice an odd number.
-/

namespace Dossier.Double

/-! ## Rounding -/

/-- The quotient, or the next one when the remainder `r` is more than half of the `unit`, or is half
of it and the quotient is odd. -/
def roundedQuotient (unit q r : ℕ) : ℕ :=
  if unit < 2 * r ∨ (2 * r = unit ∧ q % 2 = 1) then q + 1 else q

theorem shiftRound_eq {q r shift : ℕ} (hr : r < 2 ^ shift) :
    shiftRound (q * 2 ^ shift + r) shift = roundedQuotient (2 ^ shift) q r := by
  have hq : (q * 2 ^ shift + r) / 2 ^ shift = q := by
    rw [Nat.mul_comm, Nat.mul_add_div (Nat.two_pow_pos shift), Nat.div_eq_of_lt hr, Nat.add_zero]
  have hm : (q * 2 ^ shift + r) % 2 ^ shift = r := by
    rw [Nat.mul_comm, Nat.mul_add_mod, Nat.mod_eq_of_lt hr]
  simp only [shiftRound, Nat.pow_eq, hq, hm]
  rfl

theorem log2_mul_two_pow_add {q r shift : ℕ} (hq : 2 ^ 52 ≤ q) (hq' : q < 2 ^ 53)
    (hr : r < 2 ^ shift) : (q * 2 ^ shift + r).log2 = shift + 52 := by
  have h₁ : 2 ^ 52 * 2 ^ shift ≤ q * 2 ^ shift := Nat.mul_le_mul_right _ hq
  have h₂ : (q + 1) * 2 ^ shift ≤ 2 ^ 53 * 2 ^ shift := Nat.mul_le_mul_right _ hq'
  rw [Nat.add_mul] at h₂
  have hpos : 0 < 2 ^ 52 * 2 ^ shift := Nat.mul_pos (by norm_num) (Nat.two_pow_pos shift)
  rw [Nat.log2_eq_iff (by omega)]
  constructor
  · rw [Nat.pow_add, Nat.mul_comm]; omega
  · rw [show shift + 52 + 1 = 53 + shift by omega, Nat.pow_add]; omega

/-- A number of more than 53 bits has the rounded quotient for the significand of its double. -/
theorem bitsOfNat_eq {q r shift : ℕ} (hs : 0 < shift) (hq : 2 ^ 52 ≤ q) (hq' : q < 2 ^ 53)
    (hr : r < 2 ^ shift) :
    bitsOfNat (q * 2 ^ shift + r) =
      (shift + 1074) * 2 ^ 52 + roundedQuotient (2 ^ shift) q r := by
  have hpos : 0 < q * 2 ^ shift := Nat.mul_pos (by omega) (Nat.two_pow_pos shift)
  rw [bitsOfNat, if_neg (by omega)]
  simp only [log2_mul_two_pow_add hq hq' hr]
  rw [if_neg (by omega), Nat.add_sub_cancel, shiftRound_eq hr]
  norm_num

/-- A significand that is rounded up may carry into the exponent; the bits are those of the next
multiple of the unit either way. -/
theorem bitsOfNat_next {q shift : ℕ} (hs : 0 < shift) (hq : 2 ^ 52 ≤ q) (hq' : q < 2 ^ 53) :
    bitsOfNat ((q + 1) * 2 ^ shift) = (shift + 1074) * 2 ^ 52 + (q + 1) := by
  have hround : ∀ unit q : ℕ, 0 < unit → roundedQuotient unit q 0 = q := fun unit q hu => by
    rw [roundedQuotient, if_neg (by omega)]
  have hpos := Nat.two_pow_pos shift
  by_cases hc : q + 1 = 2 ^ 53
  · have h := bitsOfNat_eq (q := 2 ^ 52) (r := 0) (Nat.succ_pos shift) le_rfl (by norm_num)
      (Nat.two_pow_pos _)
    rw [hround _ _ (Nat.two_pow_pos _)] at h
    have hunit : 2 ^ 53 * 2 ^ shift = 2 ^ 52 * 2 ^ (shift + 1) + 0 := by
      rw [Nat.pow_succ 2 shift]; omega
    rw [hc, hunit, h]
    omega
  · have h := bitsOfNat_eq (q := q + 1) (r := 0) hs (by omega) (by omega) hpos
    rwa [hround _ _ hpos] at h

/-! ## Isolated integers -/

/-- The significand of the nearest double. -/
def significand (n : ℕ) : ℕ :=
  if n.log2 ≤ 52 then n * 2 ^ (52 - n.log2) else shiftRound n (n.log2 - 52)

theorem bitsOfNat_eq_significand {n : ℕ} (h : n ≠ 0) :
    bitsOfNat n = (n.log2 + 1022) * 2 ^ 52 + significand n := by
  rw [bitsOfNat, if_neg h, significand]
  simp only [Nat.pow_eq]
  norm_num

theorem exists_cut {n : ℕ} (h : 52 < n.log2) :
    ∃ q r, n = q * 2 ^ (n.log2 - 52) + r ∧ 2 ^ 52 ≤ q ∧ q < 2 ^ 53 ∧ r < 2 ^ (n.log2 - 52) := by
  have hn : n ≠ 0 := by rintro rfl; simp at h
  obtain ⟨hlo, hhi⟩ := (Nat.log2_eq_iff hn).mp rfl
  have hpos := Nat.two_pow_pos (n.log2 - 52)
  refine ⟨n / 2 ^ (n.log2 - 52), n % 2 ^ (n.log2 - 52), ?_, ?_, ?_, Nat.mod_lt _ hpos⟩
  · rw [Nat.mul_comm]; exact (Nat.div_add_mod _ _).symm
  · rw [Nat.le_div_iff_mul_le hpos, ← Nat.pow_add, show 52 + (n.log2 - 52) = n.log2 by omega]
    exact hlo
  · rw [Nat.div_lt_iff_lt_mul hpos, ← Nat.pow_add, show 53 + (n.log2 - 52) = n.log2 + 1 by omega]
    exact hhi

theorem significand_lt {n : ℕ} (hn : n ≠ 0) (h : n.log2 ≤ 52) : significand n < 2 ^ 53 := by
  obtain ⟨-, hhi⟩ := (Nat.log2_eq_iff hn).mp rfl
  rw [significand, if_pos h, show 53 = n.log2 + 1 + (52 - n.log2) by omega, Nat.pow_add]
  exact Nat.mul_lt_mul_of_pos_right hhi (Nat.two_pow_pos _)

theorem significand_bounds {n : ℕ} (hn : n ≠ 0) :
    2 ^ 52 ≤ significand n ∧ significand n ≤ 2 ^ 53 := by
  by_cases h : n.log2 ≤ 52
  · refine ⟨?_, (significand_lt hn h).le⟩
    obtain ⟨hlo, -⟩ := (Nat.log2_eq_iff hn).mp rfl
    rw [significand, if_pos h]
    calc 2 ^ 52 = 2 ^ n.log2 * 2 ^ (52 - n.log2) := by
          rw [← Nat.pow_add, show n.log2 + (52 - n.log2) = 52 by omega]
      _ ≤ n * 2 ^ (52 - n.log2) := Nat.mul_le_mul_right _ hlo
  · obtain ⟨q, r, hcut, hq, hq', hr⟩ := exists_cut (not_le.mp h)
    have hsig : significand n = roundedQuotient (2 ^ (n.log2 - 52)) q r := by
      rw [significand, if_neg h, ← shiftRound_eq hr, ← hcut]
    rw [hsig, roundedQuotient]
    split_ifs <;> omega

/-- Numbers with one double have one exponent, or the significand of one carries into the next. -/
theorem exponent_eq_or_carry {m n : ℕ} (hm : m ≠ 0) (hn : n ≠ 0)
    (h : bitsOfNat m = bitsOfNat n) :
    (m.log2 = n.log2 ∧ significand m = significand n) ∨
      (n.log2 = m.log2 + 1 ∧ significand m = 2 ^ 53 ∧ significand n = 2 ^ 52) ∨
      (m.log2 = n.log2 + 1 ∧ significand n = 2 ^ 53 ∧ significand m = 2 ^ 52) := by
  rw [bitsOfNat_eq_significand hm, bitsOfNat_eq_significand hn] at h
  obtain ⟨hm₁, hm₂⟩ := significand_bounds hm
  obtain ⟨hn₁, hn₂⟩ := significand_bounds hn
  omega

theorem bitsOfNat_eq_zero {n : ℕ} : bitsOfNat n = 0 ↔ n = 0 := by
  constructor
  · intro h
    by_contra hn
    rw [bitsOfNat_eq_significand hn] at h
    omega
  · rintro rfl; rfl

/-- A magnitude that shares its nearest double with no other: below `2 ^ 53`, where every integer is
a double, or below `2 ^ 54` and twice an odd number, to which no tie goes. -/
def IsolatedMagnitude (n : ℕ) : Prop := n < 2 ^ 53 ∨ (n < 2 ^ 54 ∧ n % 4 = 2)

theorem log2_le_of_lt {n k : ℕ} (hn : n ≠ 0) (h : n < 2 ^ (k + 1)) : n.log2 ≤ k := by
  have := (Nat.log2_lt hn).mpr h
  omega

/-- **An isolated number shares its double with no other.** -/
theorem eq_of_bitsOfNat_eq {m n : ℕ} (hn : IsolatedMagnitude n) (h : bitsOfNat m = bitsOfNat n) :
    m = n := by
  by_cases hn0 : n = 0
  · subst hn0; exact bitsOfNat_eq_zero.mp h
  have hm0 : m ≠ 0 := by
    rintro rfl; exact hn0 (bitsOfNat_eq_zero.mp h.symm)
  have hcases := exponent_eq_or_carry hm0 hn0 h
  by_cases hsmall : n < 2 ^ 53
  · have he := log2_le_of_lt hn0 hsmall
    have hlt := significand_lt hn0 he
    rcases hcases with ⟨hexp, hsig⟩ | ⟨hexp, hsig, -⟩ | ⟨-, hsig, -⟩
    · rw [significand, significand, if_pos (hexp ▸ he), if_pos he, hexp] at hsig
      exact Nat.eq_of_mul_eq_mul_right (Nat.two_pow_pos _) hsig
    · have := significand_lt hm0 (by omega)
      omega
    · omega
  · -- between `2 ^ 53` and `2 ^ 54` every second number is a double
    obtain ⟨hlt, hmod⟩ : n < 2 ^ 54 ∧ n % 4 = 2 := hn.resolve_left hsmall
    have hexp : n.log2 = 53 := (Nat.log2_eq_iff hn0).mpr ⟨by omega, hlt⟩
    have hsig : significand n = n / 2 := by
      rw [significand, hexp, if_neg (by omega)]
      have := @shiftRound_eq (n / 2) 0 1 (by norm_num)
      rw [show n / 2 * 2 ^ 1 + 0 = n by omega, roundedQuotient, if_neg (by omega)] at this
      exact this
    rcases hcases with ⟨he, hs⟩ | ⟨-, -, hs⟩ | ⟨-, hs, -⟩
    · have hround : significand m = roundedQuotient 2 (m / 2) (m % 2) := by
        rw [significand, he, hexp, if_neg (by omega)]
        have := @shiftRound_eq (m / 2) (m % 2) 1 (by omega)
        rwa [show m / 2 * 2 ^ 1 + m % 2 = m by omega] at this
      rw [hround, hsig, roundedQuotient] at hs
      split_ifs at hs <;> omega
    · omega
    · omega

theorem bitsOfNat_eq_of_roundedQuotient {q r r' shift : ℕ} (hs : 0 < shift) (hq : 2 ^ 52 ≤ q)
    (hq' : q < 2 ^ 53) (hr : r < 2 ^ shift) (hr' : r' < 2 ^ shift)
    (h : roundedQuotient (2 ^ shift) q r = roundedQuotient (2 ^ shift) q r') :
    bitsOfNat (q * 2 ^ shift + r) = bitsOfNat (q * 2 ^ shift + r') := by
  rw [bitsOfNat_eq hs hq hq' hr, bitsOfNat_eq hs hq hq' hr', h]

/-- **A magnitude of 64 bits that is not isolated shares its double with a neighbour.** -/
theorem exists_bitsOfNat_eq {n : ℕ} (h : n ≤ 2 ^ 63) (hn : ¬ IsolatedMagnitude n) :
    ∃ m < 2 ^ 63, m ≠ n ∧ bitsOfNat m = bitsOfNat n := by
  rw [IsolatedMagnitude, not_or] at hn
  -- next to `2 ^ 63` the greater neighbour is too large
  by_cases htop : 2 ^ 63 - 1 ≤ n
  · refine ⟨2 ^ 63 - 2 + (n - (2 ^ 63 - 1)), by omega, by omega, ?_⟩
    obtain rfl | rfl : n = 2 ^ 63 - 1 ∨ n = 2 ^ 63 := by omega
    · rfl
    · rfl
  have hlog : 52 < n.log2 := (Nat.le_log2 (by omega)).mpr (by omega)
  obtain ⟨q, r, hcut, hq, hq', hr⟩ := exists_cut hlog
  obtain ⟨s, hs⟩ : ∃ s, n.log2 - 52 = s + 1 := ⟨n.log2 - 53, by omega⟩
  rw [hs] at hcut hr
  obtain ⟨half, hhalf⟩ : ∃ half, 2 ^ s = half := ⟨_, rfl⟩
  have hunit : 2 ^ (s + 1) = 2 * half := by rw [Nat.pow_succ, hhalf, Nat.mul_comm]
  have hpos : 0 < half := hhalf ▸ Nat.two_pow_pos s
  have same {r' : ℕ} (hr' : r' < 2 * half)
      (hround : roundedQuotient (2 * half) q r' = roundedQuotient (2 * half) q r) :
      bitsOfNat (q * (2 * half) + r') = bitsOfNat n := by
    rw [hcut, ← hunit]
    rw [← hunit] at hr' hround
    exact bitsOfNat_eq_of_roundedQuotient (Nat.succ_pos s) hq hq' hr' hr hround
  rw [hunit] at hcut hr
  by_cases hlast : r + 1 = 2 * half
  · -- the next number is a multiple of the unit, to which `n` is rounded
    by_cases heven : half = 1 ∧ q % 2 = 0
    · refine ⟨q * (2 * half) + (r - 1), by omega, by omega, same (by omega) ?_⟩
      rw [roundedQuotient, roundedQuotient, if_neg (by omega), if_neg (by omega)]
    · refine ⟨(q + 1) * (2 * half), ?_, ?_, ?_⟩
      · rw [Nat.add_mul]; omega
      · rw [Nat.add_mul]; omega
      · rw [hcut, ← hunit, bitsOfNat_next (Nat.succ_pos s) hq hq',
          bitsOfNat_eq (Nat.succ_pos s) hq hq' (hunit ▸ hr), hunit, roundedQuotient,
          if_pos (by omega)]
  · by_cases hnext : roundedQuotient (2 * half) q (r + 1) = roundedQuotient (2 * half) q r
    · exact ⟨q * (2 * half) + (r + 1), by omega, by omega, same (by omega) hnext⟩
    · -- `n` is the last number that is rounded down
      have hr0 : 0 < r := by
        by_contra hr0
        rw [roundedQuotient, roundedQuotient] at hnext
        obtain ⟨rfl, hodd⟩ : half = 1 ∧ q % 2 = 1 := by split_ifs at hnext <;> omega
        omega
      refine ⟨q * (2 * half) + (r - 1), by omega, by omega, same (by omega) ?_⟩
      rw [roundedQuotient, roundedQuotient] at hnext ⊢
      split_ifs at hnext ⊢ <;> omega

/-! ## Ranks of 64-bit integers -/

/-- An integer of isolated magnitude. -/
def Isolated (n : ℤ) : Prop := IsolatedMagnitude n.natAbs

theorem rankOfInt_eq_iff {m n : ℤ} :
    rankOfInt m = rankOfInt n ↔
      (m < 0 ↔ n < 0) ∧ bitsOfNat m.natAbs = bitsOfNat n.natAbs := by
  have hm : bitsOfNat m.natAbs = 0 ↔ m = 0 := by rw [bitsOfNat_eq_zero, Int.natAbs_eq_zero]
  have hn : bitsOfNat n.natAbs = 0 ↔ n = 0 := by rw [bitsOfNat_eq_zero, Int.natAbs_eq_zero]
  rw [rankOfInt, rankOfInt]
  split_ifs <;> omega

/-- **A 64-bit integer is the only one of its rank iff it is isolated.** -/
theorem rankOfInt_injective_iff (n : Int64) :
    (∀ m : Int64, rankOfInt m.toInt = rankOfInt n.toInt → m = n) ↔ Isolated n.toInt := by
  constructor
  · intro h
    by_contra hn
    have hlo := n.le_toInt
    have hhi := n.toInt_lt
    obtain ⟨m, hm, hne, hbits⟩ := exists_bitsOfNat_eq (by omega) hn
    have hm0 : n.toInt < 0 → m ≠ 0 := by
      rintro hneg rfl
      have := bitsOfNat_eq_zero.mp hbits.symm
      omega
    have hto {k : ℤ} (hk : k.natAbs = m) : (Int64.ofInt k).toInt = k :=
      Int64.toInt_ofInt_of_le (by omega) (by omega)
    obtain ⟨k, hk, hsign⟩ : ∃ k : ℤ, k.natAbs = m ∧ (k < 0 ↔ n.toInt < 0) := by
      by_cases hneg : n.toInt < 0
      · exact ⟨-m, by omega, by have := hm0 hneg; omega⟩
      · exact ⟨m, by omega, by omega⟩
    have heq := h (Int64.ofInt k) (by rw [hto hk, rankOfInt_eq_iff, hk]; exact ⟨hsign, hbits⟩)
    have := hto hk
    rw [heq] at this
    omega
  · intro hn m h
    obtain ⟨hsign, hbits⟩ := rankOfInt_eq_iff.mp h
    have habs := eq_of_bitsOfNat_eq hn hbits
    refine Int64.toInt_inj.mp ?_
    omega

end Dossier.Double
