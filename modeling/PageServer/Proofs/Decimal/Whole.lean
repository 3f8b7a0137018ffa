import Mathlib
import PageServer.Decimal.Integer

/-!
# Room in 64 bits

The whole numbers that fit in 64 bits, and the powers among them: a power is
read off the exact one unless its exponent is beyond 32 bits.
-/

namespace PageServer.Decimal

/-- The number is one of 64 bits. -/
def Fits (i : ℤ) : Prop :=
  -2 ^ 63 ≤ i ∧ i < 2 ^ 63

theorem Fits.int64? {i : ℤ} (h : Fits i) : ∃ v : Int64, v.toInt = i ∧ int64? i = some v := by
  cases hv : Decimal.int64? i with
  | some v => exact ⟨v, int64?_eq_some_iff.mp hv, rfl⟩
  | none =>
    have hout := int64?_eq_none_iff.mp hv
    obtain ⟨hlow, hhigh⟩ := h
    omega

theorem int64?_of_not_fits {i : ℤ} (h : ¬ Fits i) : int64? i = none := by
  apply int64?_eq_none_iff.mpr
  rw [Fits] at h
  omega

namespace Int64Arith

/-- Of a base that is -1, 0 or 1 every other power is the same. -/
theorem pow_parity {b : ℤ} (hb : b.natAbs ≤ 1) {n : ℕ} (hn : n ≠ 0) : b ^ (2 - n % 2) = b ^ n := by
  have hcases : b = -1 ∨ b = 0 ∨ b = 1 := by omega
  obtain heven | hodd := Nat.even_or_odd n
  · have htwo : 2 - n % 2 = 2 := by
      rw [Nat.even_iff.mp heven]
    rw [htwo]
    obtain rfl | rfl | rfl := hcases
    · rw [heven.neg_one_pow]
      rfl
    · rw [zero_pow hn, zero_pow two_ne_zero]
    · rw [one_pow, one_pow]
  · have hone : 2 - n % 2 = 1 := by
      rw [Nat.odd_iff.mp hodd]
    rw [hone, pow_one]
    obtain rfl | rfl | rfl := hcases
    · exact hodd.neg_one_pow.symm
    · exact (zero_pow hn).symm
    · exact (one_pow n).symm

/-- Of any other base the 64th power has no room. -/
theorem not_fits_long_pow {b : ℤ} (hb : 2 ≤ b.natAbs) {n : ℕ} (hn : 64 ≤ n) :
    ¬ Fits (b ^ n) := by
  have hlarge : 2 ^ 63 < (b ^ n).natAbs := by
    rw [Int.natAbs_pow]
    calc
      2 ^ 63 < 2 ^ 64 := by norm_num
      _ ≤ 2 ^ n := Nat.pow_le_pow_right two_pos hn
      _ ≤ b.natAbs ^ n := Nat.pow_le_pow_left hb n
  rintro ⟨hlow, hhigh⟩
  omega

theorem pow?_eq (x : Int64) {n : ℕ} (hn : n < 2 ^ 32) : pow? x n = int64? (x.toInt ^ n) := by
  have hsize : ¬ UInt32.size ≤ n := not_le.mpr hn
  rw [pow?, if_neg hsize]
  split
  · next hzero =>
    rw [hzero, pow_zero]
    rfl
  next hzero =>
  split
  · next hsmall => exact congrArg int64? (pow_parity hsmall hzero)
  next hlarge =>
  split
  · next hmany => exact (int64?_of_not_fits (not_fits_long_pow (by omega) hmany)).symm
  · rfl

theorem pow?_of_long_exponent (x : Int64) {n : ℕ} (hn : 2 ^ 32 ≤ n) : pow? x n = none :=
  if_pos hn

end Int64Arith

end PageServer.Decimal
