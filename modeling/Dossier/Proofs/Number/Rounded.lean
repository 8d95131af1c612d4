import Mathlib
import Dossier.Proofs.Number.Nearest

/-!
# Doubles as exact numbers

Every double is a multiple of the least positive one, `2 ^ (-1074)`. In this unit its number is an
integer, and so is the number of an integer.

* `magnitude`, `magnitude_strictMono`: the number of a double without a sign;
* `bitsOfNat_mono`, `le_bitsOfNat`, `bitsOfNat_le`: rounding to the nearest double passes no double;
* `numberOfRank`: the number of a rank;
* `le_rankOfInt`, `rankOfInt_le`, `rankOfInt_mono`: the same with signs;
* **`Nearest.mono`**: nearest doubles are in the order of the numbers.
-/

namespace Dossier.Double

/-- The least positive double is `2 ^ (-leastExponent)`. -/
def leastExponent : ℕ := 1074

/-- How often the least positive double goes into one. -/
def unit : ℕ := 2 ^ leastExponent

/-- The number of a double without a sign, by its bits. Infinity stands where the next power of two
would. -/
def magnitude (bits : ℕ) : ℕ :=
  if bits < 2 ^ 52 then bits else (2 ^ 52 + bits % 2 ^ 52) * 2 ^ (bits / 2 ^ 52 - 1)

theorem unit_pos : 0 < unit := Nat.two_pow_pos leastExponent

/-- The number by significand and exponent. A significand of `2 ^ 53` carries into the exponent. -/
theorem magnitude_mul_add {e s : ℕ} (hs : 2 ^ 52 ≤ s) (hs' : s ≤ 2 ^ 53) :
    magnitude (e * 2 ^ 52 + s) = s * 2 ^ e := by
  rw [magnitude, if_neg (by omega)]
  by_cases hc : s = 2 ^ 53
  · rw [show (e * 2 ^ 52 + s) % 2 ^ 52 = 0 by omega,
      show (e * 2 ^ 52 + s) / 2 ^ 52 - 1 = e + 1 by omega, hc, Nat.pow_succ 2 e]
    omega
  · rw [show (e * 2 ^ 52 + s) % 2 ^ 52 = s - 2 ^ 52 by omega,
      show (e * 2 ^ 52 + s) / 2 ^ 52 - 1 = e by omega, show 2 ^ 52 + (s - 2 ^ 52) = s by omega]

theorem exists_significand {b : ℕ} (h : 2 ^ 52 ≤ b) :
    ∃ e s, b = e * 2 ^ 52 + s ∧ 2 ^ 52 ≤ s ∧ s < 2 ^ 53 :=
  ⟨b / 2 ^ 52 - 1, 2 ^ 52 + b % 2 ^ 52, by omega, by omega, by omega⟩

theorem magnitude_strictMono : StrictMono magnitude := by
  refine strictMono_nat_of_lt_succ fun b => ?_
  by_cases hsmall : b < 2 ^ 52
  · have hb : magnitude b = b := if_pos hsmall
    by_cases hnext : b + 1 < 2 ^ 52
    · rw [hb, magnitude, if_pos hnext]
      exact Nat.lt_succ_self b
    · have hone : magnitude (b + 1) = 2 ^ 52 := by
        rw [show b + 1 = 0 * 2 ^ 52 + 2 ^ 52 by omega,
          magnitude_mul_add le_rfl (by norm_num), Nat.pow_zero, Nat.mul_one]
      omega
  · obtain ⟨e, s, rfl, hs, hs'⟩ := exists_significand (not_lt.mp hsmall)
    rw [Nat.add_assoc, magnitude_mul_add hs hs'.le, magnitude_mul_add (by omega) hs']
    exact Nat.mul_lt_mul_of_pos_right (Nat.lt_succ_self s) (Nat.two_pow_pos e)

theorem magnitude_zero : magnitude 0 = 0 := rfl

/-! ## Rounding to the nearest double -/

theorem shiftRound_mono {m n : ℕ} (h : m ≤ n) (shift : ℕ) :
    shiftRound m shift ≤ shiftRound n shift := by
  have hpos := Nat.two_pow_pos shift
  have hm := Nat.div_add_mod m (2 ^ shift)
  have hn := Nat.div_add_mod n (2 ^ shift)
  have hround {k : ℕ} : shiftRound k shift =
      roundedQuotient (2 ^ shift) (k / 2 ^ shift) (k % 2 ^ shift) := by
    rw [← shiftRound_eq (Nat.mod_lt k hpos), Nat.mul_comm, Nat.div_add_mod]
  rw [hround, hround, roundedQuotient, roundedQuotient]
  obtain hquotient | hquotient := (Nat.div_le_div_right (c := 2 ^ shift) h).eq_or_lt
  · rw [hquotient] at hm
    split_ifs <;> omega
  · split_ifs <;> omega

theorem significand_mono {m n : ℕ} (h : m ≤ n) (hexp : m.log2 = n.log2) :
    significand m ≤ significand n := by
  rw [significand, significand, hexp]
  split
  · exact Nat.mul_le_mul_right _ h
  · exact shiftRound_mono h _

/-- **Rounding keeps the order.** -/
theorem bitsOfNat_mono {m n : ℕ} (h : m ≤ n) : bitsOfNat m ≤ bitsOfNat n := by
  by_cases hm : m = 0
  · rw [hm, bitsOfNat_eq_zero.mpr rfl]
    exact Nat.zero_le _
  have hn : n ≠ 0 := by omega
  rw [bitsOfNat_eq_significand hm, bitsOfNat_eq_significand hn]
  have hexp : m.log2 ≤ n.log2 := (Nat.le_log2 hn).mpr ((Nat.log2_self_le hm).trans h)
  obtain heq | hlt := hexp.eq_or_lt
  · have hsig := significand_mono h heq
    omega
  · have hm' := (significand_bounds hm).2
    have hn' := (significand_bounds hn).1
    omega

theorem magnitude_bitsOfNat {n : ℕ} (h : n.log2 ≤ 52) : magnitude (bitsOfNat n) = n * unit := by
  by_cases hn : n = 0
  · subst hn
    rw [bitsOfNat_eq_zero.mpr rfl, magnitude_zero, Nat.zero_mul]
  · obtain ⟨hlo, hhi⟩ := significand_bounds hn
    rw [bitsOfNat_eq_significand hn, magnitude_mul_add hlo hhi, significand, if_pos h, Nat.mul_assoc,
      ← Nat.pow_add, show 52 - n.log2 + (n.log2 + 1022) = leastExponent by unfold leastExponent; omega,
      unit]

theorem bitsOfNat_mul_two_pow {s : ℕ} (hs : 2 ^ 52 ≤ s) (hs' : s < 2 ^ 53) (shift : ℕ) :
    bitsOfNat (s * 2 ^ shift) = (shift + 1074) * 2 ^ 52 + s := by
  have hlog := log2_mul_two_pow_add hs hs' (Nat.two_pow_pos shift)
  rw [Nat.add_zero] at hlog
  have hpos : s * 2 ^ shift ≠ 0 := (Nat.mul_pos (by omega) (Nat.two_pow_pos shift)).ne'
  rw [bitsOfNat_eq_significand hpos, significand, hlog]
  by_cases hshift : shift = 0
  · rw [if_pos (by omega), hshift]
    norm_num
  · have hunit := Nat.two_pow_pos shift
    have hround := shiftRound_eq (q := s) hunit
    rw [Nat.add_zero, roundedQuotient, if_neg (by omega)] at hround
    rw [if_neg (by omega), Nat.add_sub_cancel, hround]

theorem exists_bitsOfNat {b : ℕ} (h : 1075 * 2 ^ 52 ≤ b) :
    ∃ n, bitsOfNat n = b ∧ magnitude b = n * unit := by
  obtain ⟨e, s, rfl, hs, hs'⟩ := exists_significand (show 2 ^ 52 ≤ b by omega)
  obtain ⟨shift, rfl⟩ : ∃ shift, e = shift + leastExponent :=
    ⟨e - leastExponent, by unfold leastExponent; omega⟩
  exact ⟨s * 2 ^ shift, bitsOfNat_mul_two_pow hs hs' shift, by
    rw [magnitude_mul_add hs hs'.le, Nat.pow_add, Nat.mul_assoc, unit]⟩

/-- The double nearest to a number of more than 53 bits is greater than all that may have a
fraction. -/
theorem lt_bitsOfNat {n : ℕ} (h : 52 < n.log2) : 1075 * 2 ^ 52 < bitsOfNat n := by
  have hn : n ≠ 0 := by
    rintro rfl
    simp at h
  have hlo := (significand_bounds hn).1
  rw [bitsOfNat_eq_significand hn]
  omega

/-- **Rounding does not pass a double** below. -/
theorem le_bitsOfNat {b n : ℕ} (h : magnitude b ≤ n * unit) : b ≤ bitsOfNat n := by
  by_cases hn : n.log2 ≤ 52
  · rw [← magnitude_bitsOfNat hn] at h
    exact magnitude_strictMono.le_iff_le.mp h
  by_cases hb : b < 1075 * 2 ^ 52
  · exact (hb.trans (lt_bitsOfNat (not_le.mp hn))).le
  obtain ⟨m, rfl, hm⟩ := exists_bitsOfNat (not_lt.mp hb)
  rw [hm] at h
  exact bitsOfNat_mono (Nat.le_of_mul_le_mul_right h unit_pos)

/-- **Rounding does not pass a double** above. -/
theorem bitsOfNat_le {b n : ℕ} (h : n * unit ≤ magnitude b) : bitsOfNat n ≤ b := by
  by_cases hn : n.log2 ≤ 52
  · rw [← magnitude_bitsOfNat hn] at h
    exact magnitude_strictMono.le_iff_le.mp h
  by_cases hb : b < 1075 * 2 ^ 52
  · -- a double that may have a fraction is less than `2 ^ 52`
    have hlt := magnitude_strictMono hb
    have htop : magnitude (1075 * 2 ^ 52) = 2 ^ 52 * unit := by
      rw [show 1075 * 2 ^ 52 = leastExponent * 2 ^ 52 + 2 ^ 52 by unfold leastExponent; norm_num,
        magnitude_mul_add le_rfl (by norm_num), unit]
    have hbig : 2 ^ 52 ≤ n := by
      have hn0 : n ≠ 0 := by
        rintro rfl
        simp at hn
      exact ((Nat.le_log2 hn0).mp (not_le.mp hn).le)
    have hle := Nat.mul_le_mul_right unit hbig
    omega
  obtain ⟨m, rfl, hm⟩ := exists_bitsOfNat (not_lt.mp hb)
  rw [hm] at h
  exact bitsOfNat_mono (Nat.le_of_mul_le_mul_right h unit_pos)

/-! ## Ranks -/

/-- The number of a rank. -/
def numberOfRank (r : ℤ) : ℤ := if r < 0 then -(magnitude r.natAbs : ℤ) else magnitude r.natAbs

theorem numberOfRank_natCast (b : ℕ) : numberOfRank b = magnitude b := by
  rw [numberOfRank, if_neg (by omega), Int.natAbs_natCast]

theorem numberOfRank_neg (r : ℤ) : numberOfRank (-r) = -numberOfRank r := by
  rw [numberOfRank, numberOfRank, Int.natAbs_neg]
  obtain hlt | rfl | hgt := lt_trichotomy r 0
  · rw [if_neg (by omega), if_pos hlt, neg_neg]
  · rfl
  · rw [if_pos (by omega), if_neg (by omega)]

theorem rankOfInt_natCast (n : ℕ) : rankOfInt n = bitsOfNat n := by
  rw [rankOfInt, if_neg (by omega), Int.natAbs_natCast]

theorem rankOfInt_neg (n : ℤ) : rankOfInt (-n) = -rankOfInt n := by
  rw [rankOfInt, rankOfInt, Int.natAbs_neg]
  obtain hlt | rfl | hgt := lt_trichotomy n 0
  · rw [if_neg (by omega), if_pos hlt, neg_neg]
  · rfl
  · rw [if_pos (by omega), if_neg (by omega)]

theorem numberOfRank_nonneg {r : ℤ} (h : 0 ≤ r) : 0 ≤ numberOfRank r := by
  rw [numberOfRank, if_neg (by omega)]
  omega

theorem rankOfInt_nonneg {n : ℤ} (h : 0 ≤ n) : 0 ≤ rankOfInt n := by
  rw [rankOfInt, if_neg (by omega)]
  omega

theorem numberOfRank_strictMono : StrictMono numberOfRank := by
  refine strictMono_of_odd_strictMonoOn_nonneg numberOfRank_neg fun r hr s hs hrs => ?_
  obtain ⟨b, rfl⟩ := Int.eq_ofNat_of_zero_le hr
  obtain ⟨c, rfl⟩ := Int.eq_ofNat_of_zero_le hs
  rw [numberOfRank_natCast, numberOfRank_natCast]
  exact Int.ofNat_lt.mpr (magnitude_strictMono (Int.ofNat_lt.mp hrs))

/-- **The nearest double of an integer** is not below a double that the integer is not below. -/
theorem le_rankOfInt {r n : ℤ} (h : numberOfRank r ≤ n * unit) : r ≤ rankOfInt n := by
  have hunit : (0 : ℤ) < unit := Int.natCast_pos.mpr unit_pos
  by_cases hn : 0 ≤ n
  · by_cases hr : 0 ≤ r
    · obtain ⟨b, rfl⟩ := Int.eq_ofNat_of_zero_le hr
      obtain ⟨k, rfl⟩ := Int.eq_ofNat_of_zero_le hn
      rw [numberOfRank_natCast] at h
      rw [rankOfInt_natCast]
      exact Int.ofNat_le.mpr (le_bitsOfNat (by exact_mod_cast h))
    · have := rankOfInt_nonneg hn
      omega
  have hneg : n * unit < 0 := mul_neg_of_neg_of_pos (not_le.mp hn) hunit
  have hr : ¬ 0 ≤ r := fun hr => by
    have := numberOfRank_nonneg hr
    omega
  obtain ⟨b, hb⟩ := Int.eq_ofNat_of_zero_le (show 0 ≤ -r by omega)
  obtain ⟨k, hk⟩ := Int.eq_ofNat_of_zero_le (show 0 ≤ -n by omega)
  obtain rfl : r = -(b : ℤ) := by omega
  obtain rfl : n = -(k : ℤ) := by omega
  rw [numberOfRank_neg, numberOfRank_natCast, neg_mul, neg_le_neg_iff] at h
  rw [rankOfInt_neg, rankOfInt_natCast, neg_le_neg_iff]
  exact Int.ofNat_le.mpr (bitsOfNat_le (by exact_mod_cast h))

/-- **The nearest double of an integer** is not above a double that the integer is not above. -/
theorem rankOfInt_le {r n : ℤ} (h : n * unit ≤ numberOfRank r) : rankOfInt n ≤ r := by
  have hneg : numberOfRank (-r) ≤ -n * unit := by
    rw [numberOfRank_neg, neg_mul]
    omega
  have hle := le_rankOfInt hneg
  rw [rankOfInt_neg] at hle
  omega

/-- **Rounding integers keeps the order.** -/
theorem rankOfInt_mono : Monotone rankOfInt := by
  refine monotone_of_odd_of_monotoneOn_nonneg rankOfInt_neg fun m hm n hn hmn => ?_
  obtain ⟨j, rfl⟩ := Int.eq_ofNat_of_zero_le hm
  obtain ⟨k, rfl⟩ := Int.eq_ofNat_of_zero_le hn
  rw [rankOfInt_natCast, rankOfInt_natCast]
  exact Int.ofNat_le.mpr (bitsOfNat_mono (Int.ofNat_le.mp hmn))

/-! ## Numbers beside ranks -/

/-- An integer or a double, with the rank of its nearest double. -/
inductive Nearest : ℤ → ℤ → Prop
  | ofInt (n : ℤ) : Nearest (n * unit) (rankOfInt n)
  | ofRank (r : ℤ) : Nearest (numberOfRank r) r

/-- **Nearest doubles are in the order of the numbers**, or they are one. -/
theorem Nearest.mono {m n r s : ℤ} (hm : Nearest m r) (hn : Nearest n s) (h : m ≤ n) : r ≤ s := by
  cases hm with
  | ofInt j =>
    cases hn with
    | ofInt k => exact rankOfInt_mono (le_of_mul_le_mul_right h (Int.natCast_pos.mpr unit_pos))
    | ofRank => exact rankOfInt_le h
  | ofRank =>
    cases hn with
    | ofInt k => exact le_rankOfInt h
    | ofRank => exact numberOfRank_strictMono.le_iff_le.mp h

end Dossier.Double
