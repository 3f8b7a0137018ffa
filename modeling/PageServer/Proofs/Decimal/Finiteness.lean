import PageServer.Proofs.Decimal.ReadBack

/-!
# Doubles that are finite

Whatever is computed stays finite as long as its exponent has room. So a whole
number of 64 bits is a finite double, as is the negative of a finite double and
every double between two of them.
-/

namespace PageServer.Decimal

open Float.Model
open Float.Model.UnpackedFloat

/-! ### Packing -/

/-- A number whose exponent has room in a double. -/
inductive Packable : UnpackedFloat → Prop
  | zero (s : Sign) : Packable (.zero s)
  | finite (s : Sign) (m : ℕ) {e : ℤ} (hm : 0 < m) (he : e ≤ 971) : Packable (.finite s m e hm)

theorem isFinite_unpack {b : BitVec Format.binary64.numBits} (h : unpackExponent b ≠ -1#_) :
    (UnpackedFloat.unpack Format.binary64 b).isFinite = true := by
  rw [UnpackedFloat.unpack, if_neg h]
  split
  · split <;> rfl
  · rfl

theorem Packable.isFinite_pack {f : UnpackedFloat} (h : Packable f) :
    (Float.ofModel (.pack f)).isFinite = true := by
  apply isFinite_unpack (b := UnpackedFloat.pack Format.binary64 f)
  cases h with
  | zero s =>
    rw [UnpackedFloat.pack, packedZero, unpackExponent_packComponents]
    decide
  | @finite s m e hm he =>
    obtain ⟨k, hk⟩ : ∃ k : ℕ, (e + Format.binary64.exponentBias +
        Format.binary64.mantissaBitsWithoutImplicit).toNat = k := ⟨_, rfl⟩
    have hlt : k < 2047 := by
      rw [exponentBias_eq] at hk
      simp only at hk
      omega
    simp only [UnpackedFloat.pack, hk]
    rw [if_neg (by omega)]
    split
    · rw [unpackExponent_packComponents]
      intro hones
      have hnat : k % 2 ^ 11 = 2047 := by
        have hbits := congrArg BitVec.toNat hones
        rwa [BitVec.toNat_ofNat] at hbits
      omega
    · rw [unpackExponent_packComponents]
      decide

theorem packable_of_isFinite {x : Float} (h : x.isFinite = true) :
    Packable x.toModel.unpack := by
  change x.toModel.unpack.isFinite = true at h
  cases hx : x.toModel.unpack with
  | zero s => exact .zero s
  | finite s m e hm => exact .finite s m hm (canonical_of_unpack hx).greatest
  | infinity s =>
    rw [hx] at h
    cases h
  | notANumber =>
    rw [hx] at h
    cases h

theorem Packable.neg {f : UnpackedFloat} (h : Packable f) : Packable f.neg := by
  cases h with
  | zero s => exact .zero _
  | finite s m hm he => exact .finite _ m hm he

theorem isFinite_neg {x : Float} (h : x.isFinite = true) : (-x).isFinite = true :=
  (packable_of_isFinite h).neg.isFinite_pack

/-! ### Rounding -/

theorem shiftToTarget_exponent (m : ℕ) (e : ℤ) (acc : Accuracy) :
    (shiftToTargetExponent Format.binary64 m e acc).2 = max e (target m e) := by
  rw [shiftToTargetExponent, targetExponent_eq, shiftToExponent]
  dsimp only
  omega

theorem mantissa_shiftRight (em : ExtendedMantissa) (n : ℕ) :
    (em >>> n).mantissa ≤ em.mantissa := by
  change (n.repeat ExtendedMantissa.shiftRightOne em).mantissa ≤ em.mantissa
  induction n with
  | zero => rfl
  | succ n ih => exact (Nat.div_le_self _ 2).trans ih

theorem mantissa_ofMantissaAndAccuracy (m : ℕ) (acc : Accuracy) :
    (ExtendedMantissa.ofMantissaAndAccuracy m acc).mantissa = m := by
  cases acc with
  | exact => rfl
  | inexact o => cases o <;> rfl

theorem mantissa_shiftToTarget (m : ℕ) (e : ℤ) (acc : Accuracy) :
    (shiftToTargetExponent Format.binary64 m e acc).1.mantissa ≤ m := by
  apply (mantissa_shiftRight _ _).trans
  rw [mantissa_ofMantissaAndAccuracy]

theorem roundedMantissa_le (em : ExtendedMantissa) : em.roundedMantissa ≤ em.mantissa + 1 := by
  rw [ExtendedMantissa.roundedMantissa]
  unfold Accuracy.roundToNearestEven
  split <;> omega

theorem log2_le_of_le {n k : ℕ} (h : n ≤ 2 ^ k) : n.log2 ≤ k := by
  rw [Nat.log2_eq_log_two]
  exact (Nat.log_mono_right h).trans (Nat.log_pow one_lt_two k).le

/-- Rounding adds at most one bit, so a number with few bits and a small
exponent stays far below the greatest double. -/
theorem packable_round {s : Sign} {m : ℕ} {e : ℤ} {acc : Accuracy} (hm : m < 2 ^ 200)
    (he : e ≤ 100) : Packable (roundWithAccuracy Format.binary64 s m e acc) := by
  have hexp := shiftToTarget_exponent m e acc
  have hmant := mantissa_shiftToTarget m e acc
  rw [roundWithAccuracy]
  generalize shiftToTargetExponent Format.binary64 m e acc = shifted at hexp hmant
  obtain ⟨em, e₁⟩ := shifted
  dsimp only at hexp hmant ⊢
  have hlog : m.log2 ≤ 200 := log2_le_of_le hm.le
  have hlog₁ : em.roundedMantissa.log2 ≤ 200 := by
    apply log2_le_of_le
    have hle := roundedMantissa_le em
    omega
  split
  · exact .zero s
  · apply Packable.finite
    rw [shiftToTarget_exponent]
    rw [target] at hexp ⊢
    omega

/-! ### Whole numbers -/

theorem packable_mul {s₁ s₂ : Sign} {m₁ m₂ : ℕ} {e₁ e₂ : ℤ} {h₁ : 0 < m₁} {h₂ : 0 < m₂}
    (hm : m₁ * m₂ < 2 ^ 200) (he : e₁ + e₂ ≤ 100) :
    Packable (UnpackedFloat.mul Format.binary64 (.finite s₁ m₁ e₁ h₁) (.finite s₂ m₂ e₂ h₂)) :=
  packable_round hm he

theorem exponent_lt_of_value {m n : ℕ} {e : ℤ} {k : ℕ} (hm : 0 < m) (hvalue : (m : ℚ) * 2 ^ e = n)
    (hn : n < 2 ^ k) : e < k := by
  have hone : (1 : ℚ) ≤ m := by exact_mod_cast hm
  have hlt : (2 : ℚ) ^ e < 2 ^ (k : ℤ) := by
    calc
      (2 : ℚ) ^ e ≤ m * 2 ^ e := le_mul_of_one_le_left (by positivity) hone
      _ = n := hvalue
      _ < 2 ^ (k : ℤ) := by
        rw [zpow_natCast]
        exact_mod_cast hn
  exact (zpow_lt_zpow_iff_right₀ one_lt_two).mp hlt

theorem isFinite_ofNat {n : ℕ} (hn : n ≤ 2 ^ 63) : (Float.ofNat n).isFinite = true := by
  obtain rfl | hpos := Nat.eq_zero_or_pos n
  · decide +kernel
  change (Float.ofScientific n false 0).isFinite = true
  rw [Float.ofScientific]
  split
  · next hsmall =>
    obtain ⟨m₁, e₁, h₁, hx₁, hvalue₁⟩ := unpack_toFloat hpos hsmall.1
    obtain ⟨m₂, e₂, h₂, hx₂, hvalue₂⟩ := @unpack_powerOfTen 0 (by decide)
    have hm₁ := (canonical_of_unpack hx₁).lt
    have hm₂ := (canonical_of_unpack hx₂).lt
    have he₁ := exponent_lt_of_value h₁ hvalue₁ hsmall.1
    have he₂ := @exponent_lt_of_value m₂ 1 e₂ 1 h₂ (by simpa using hvalue₂) (by decide)
    apply Packable.isFinite_pack (f := UnpackedFloat.mul Format.binary64
      n.toUInt64.toFloat.toModel.unpack Float.exactlyRepresentablePowersOfTen[0].toModel.unpack)
    rw [hx₁, hx₂]
    apply packable_mul
    · calc
        m₁ * m₂ < 2 ^ 53 * 2 ^ 53 := Nat.mul_lt_mul'' hm₁ hm₂
        _ < 2 ^ 200 := by norm_num
    · omega
  · -- the mantissa gets 53 bits more, and the exponent is as much less
    apply Packable.isFinite_pack (f := UnpackedFloat.ofScientific Format.binary64 n 0)
    have hbits : Format.binary64.exponentBits = 11 := rfl
    have hmant : Format.binary64.mantissaBits = 53 := rfl
    have hshifted : n <<< Format.binary64.mantissaBits * 10 ^ Int.toNat 0 < 2 ^ 200 := by
      rw [hmant, Nat.shiftLeft_eq, Int.toNat_zero, pow_zero, mul_one]
      calc
        n * 2 ^ 53 ≤ 2 ^ 63 * 2 ^ 53 := Nat.mul_le_mul_right _ hn
        _ < 2 ^ 200 := by norm_num
    have hexp : -(Format.binary64.mantissaBits : ℤ) + 0 ≤ 100 := by decide
    rw [UnpackedFloat.ofScientific, dif_neg hpos.ne', hbits, if_neg (by decide), if_neg (by omega),
      if_pos le_rfl]
    exact packable_mul hshifted hexp

theorem isFinite_ofInt (v : Int64) : (Float.ofInt v.toInt).isFinite = true := by
  have hlow := v.le_toInt
  have hhigh := v.toInt_lt
  generalize v.toInt = k at hlow hhigh
  cases k with
  | ofNat n =>
    rw [Int.ofNat_eq_natCast] at hhigh
    exact isFinite_ofNat (by omega)
  | negSucc n => exact isFinite_neg (isFinite_ofNat (by omega))

/-! ### Between two doubles -/

theorem not_le_negativeInfinity {f : UnpackedFloat} (h : f.isFinite = true) :
    f.le (.infinity .negative) = false := by
  cases f with
  | notANumber => cases h
  | infinity s => cases h
  | zero s => rfl
  | finite s m e hm => rfl

theorem not_positiveInfinity_le {f : UnpackedFloat} (h : f.isFinite = true) :
    UnpackedFloat.le (.infinity .positive) f = false := by
  cases f with
  | notANumber => cases h
  | infinity s => cases h
  | zero s => rfl
  | finite s m e hm => rfl

theorem isFinite_of_between {x y z : Float} (hy : y.isFinite = true) (hz : z.isFinite = true)
    (hyx : y ≤ x) (hxz : x ≤ z) : x.isFinite = true := by
  have hlow : y.toModel.unpack.le x.toModel.unpack = true := of_decide_eq_true hyx
  have hhigh : x.toModel.unpack.le z.toModel.unpack = true := of_decide_eq_true hxz
  change x.toModel.unpack.isFinite = true
  cases hx : x.toModel.unpack with
  | zero s => rfl
  | finite s m e hm => rfl
  | infinity s =>
    rw [hx] at hlow hhigh
    cases s with
    | negative =>
      rw [not_le_negativeInfinity hy] at hlow
      cases hlow
    | positive =>
      rw [not_positiveInfinity_le hz] at hhigh
      cases hhigh
  | notANumber =>
    rw [hx] at hhigh
    cases hhigh

end PageServer.Decimal
