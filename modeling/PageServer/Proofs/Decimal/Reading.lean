import PageServer.Decimal.Reader
import PageServer.Proofs.Decimal.Digits
import PageServer.Proofs.Decimal.Packing

/-!
# Reading a decimal fraction

A decimal fraction is read as the double in whose interval it lies. Short
fractions are read by one division of doubles that hold the digits and the power
of ten exactly, all others by a division of whole numbers.
-/

namespace PageServer.Decimal

open Float.Model
open Float.Model.UnpackedFloat

theorem roundsTo_self {m : ℕ} {e : ℤ} : RoundsTo m e (m * 2 ^ e) := by
  have hunit : (0 : ℚ) < 2 ^ e := by positivity
  constructor
  · gcongr
    linarith
  · intro _ _
    gcongr
    linarith
  · gcongr
    linarith
  · intro _
    constructor <;> gcongr <;> linarith

theorem canonical_mul_two_pow {n k : ℕ} (hn : 0 < n) (hk : n.log2 + k = 52) :
    Canonical (n * 2 ^ k) (-k) := by
  have hpow : 2 ^ n.log2 * 2 ^ k = 2 ^ 52 := by rw [← pow_add, hk]
  have hsucc : 2 ^ (n.log2 + 1) * 2 ^ k = 2 ^ 53 := by
    rw [← pow_add]
    congr 1
    omega
  refine ⟨by positivity, ?_, by omega, by omega, .inl ?_⟩
  · rw [← hsucc]
    exact Nat.mul_lt_mul_of_pos_right Nat.lt_log2_self (by positivity)
  · rw [← hpow]
    exact Nat.mul_le_mul_right _ (Nat.log2_self_le hn.ne')

theorem mul_two_pow_value (n k : ℕ) : ((n * 2 ^ k : ℕ) : ℚ) * 2 ^ (-k : ℤ) = n := by
  push_cast
  rw [zpow_neg, zpow_natCast]
  field_simp

theorem round_nat {n k : ℕ} (hn : 0 < n) (hk : n.log2 + k = 52) :
    UnpackedFloat.round Format.binary64 .positive n 0 =
      .finite .positive (n * 2 ^ k) (-k) (canonical_mul_two_pow hn hk).pos := by
  have hc := canonical_mul_two_pow hn hk
  have htarget : target n 0 = -k := by
    rw [target]
    omega
  have hshift : ((0 : ℤ) - -k).toNat = k := by omega
  have hexp : (0 : ℤ) - k = -k := by omega
  have hself : RoundsTo (n * 2 ^ k) (-k) n := by
    rw [← mul_two_pow_value n k]
    exact roundsTo_self
  have happrox : Approximates (.ofMantissaAndAccuracy (n * 2 ^ k) .exact)
      ((n : ℚ) / 2 ^ (-k : ℤ)) := by
    change (n : ℚ) / 2 ^ (-k : ℤ) = ((n * 2 ^ k : ℕ) : ℚ)
    rw [div_eq_iff (by positivity)]
    exact (mul_two_pow_value n k).symm
  rw [UnpackedFloat.round, targetExponent_eq, htarget, decreaseExponent, hshift, hexp,
    Nat.shiftLeft_eq]
  exact roundWithAccuracy_eq hc hself happrox hc.target_eq.ge

/-- Whole numbers of at most 53 bits are doubles. -/
theorem unpack_toFloat {n : ℕ} (hn : 0 < n) (hlt : n < 2 ^ 53) :
    ∃ (m : ℕ) (e : ℤ) (h : 0 < m),
      n.toUInt64.toFloat.toModel.unpack = .finite .positive m e h ∧ (m : ℚ) * 2 ^ e = n := by
  have hlog : n.log2 < 53 := (Nat.log2_lt hn.ne').mpr hlt
  obtain ⟨k, hk⟩ : ∃ k, n.log2 + k = 52 := ⟨52 - n.log2, by omega⟩
  have hc := canonical_mul_two_pow hn hk
  have hnat : n.toUInt64.toNat = n :=
    UInt64.toNat_ofNat_of_lt (by change n < 2 ^ 64; omega)
  have hpositive : compare (n : ℤ) 0 = .gt := Int.compare_eq_gt.mpr (by omega)
  have hconvert : UnpackedFloat.ofUInt64 Format.binary64 n.toUInt64 =
      UnpackedFloat.round Format.binary64 .positive n 0 := by
    rw [UnpackedFloat.ofUInt64, UnpackedFloat.ofNat, UnpackedFloat.ofInt, UnpackedFloat.normalize,
      hnat, hpositive]
    rfl
  refine ⟨n * 2 ^ k, -k, hc.pos, ?_, mul_two_pow_value n k⟩
  change (Float.Model.pack (UnpackedFloat.ofUInt64 Format.binary64 n.toUInt64)).unpack = _
  rw [hconvert, round_nat hn hk, unpack_pack .positive hc]

/-- Whether a double is so many times ten, multiplied out. -/
def isPowerOfTen (x : Float) (p : ℕ) : Bool :=
  match x.toModel.unpack with
  | .finite .positive m e _ => m * 2 ^ e.toNat == 10 ^ p * 2 ^ (-e).toNat
  | _ => false

theorem unpack_of_isPowerOfTen {x : Float} {p : ℕ} (h : isPowerOfTen x p = true) :
    ∃ (m : ℕ) (e : ℤ) (h : 0 < m),
      x.toModel.unpack = .finite .positive m e h ∧ (m : ℚ) * 2 ^ e = 10 ^ p := by
  rw [isPowerOfTen] at h
  split at h
  · next m e hm hx =>
    refine ⟨m, e, hm, hx, ?_⟩
    have hnat : (m : ℚ) * 2 ^ e.toNat = 10 ^ p * 2 ^ (-e).toNat := by
      exact_mod_cast eq_of_beq h
    have hsplit : (2 : ℚ) ^ e = 2 ^ e.toNat / 2 ^ (-e).toNat := by
      rw [← zpow_natCast, ← zpow_natCast, ← zpow_sub₀ two_ne_zero]
      congr 1
      omega
    rw [hsplit, ← mul_div_assoc, hnat]
    field_simp
  · cases h

theorem isPowerOfTen_powers : ∀ p : Fin Float.exactlyRepresentablePowersOfTen.size,
    isPowerOfTen Float.exactlyRepresentablePowersOfTen[p] p = true := by
  decide +kernel

/-- The first powers of ten are doubles. -/
theorem unpack_powerOfTen {p : ℕ} (hp : p < Float.exactlyRepresentablePowersOfTen.size) :
    ∃ (m : ℕ) (e : ℤ) (h : 0 < m),
      Float.exactlyRepresentablePowersOfTen[p].toModel.unpack = .finite .positive m e h ∧
        (m : ℚ) * 2 ^ e = 10 ^ p :=
  unpack_of_isPowerOfTen (isPowerOfTen_powers ⟨p, hp⟩)

theorem ofModel_div {s₁ s₂ : Sign} {m₁ m₂ m : ℕ} {e₁ e₂ e : ℤ} {h₁ : 0 < m₁} {h₂ : 0 < m₂}
    {x y : Float} (hx : x.toModel.unpack = .finite s₁ m₁ e₁ h₁)
    (hy : y.toModel.unpack = .finite s₂ m₂ e₂ h₂) (hc : Canonical m e)
    (hv : RoundsTo m e (m₁ * 2 ^ e₁ / (m₂ * 2 ^ e₂))) :
    x / y = Float.ofModel (.pack (.finite (s₁ / s₂) m e hc.pos)) := by
  change Float.ofModel (.pack (UnpackedFloat.div Format.binary64 x.toModel.unpack
    y.toModel.unpack)) = _
  rw [hx, hy, div_eq h₁ h₂ hc hv]

/-! ### Sizes -/

section Bounds

variable {m c p : ℕ} {e : ℤ} {v : ℚ}

theorem RoundsTo.le (hc : Canonical m e) (hv : RoundsTo m e v) : 2 ^ (-1075 : ℤ) ≤ v := by
  have hm : (1 : ℚ) ≤ m := by exact_mod_cast hc.pos
  calc
    (2 : ℚ) ^ (-1075 : ℤ) = 1 / 2 * 2 ^ (-1074 : ℤ) := by
      have hexp : (-1075 : ℤ) = -1 + -1074 := by decide
      rw [hexp, zpow_add₀ two_ne_zero, zpow_neg_one, one_div]
    _ ≤ ((m : ℚ) - 1 / 2) * 2 ^ e := by
      apply mul_le_mul
      · linarith
      · exact zpow_le_zpow_right₀ one_le_two hc.least
      · positivity
      · linarith
    _ ≤ v := hv.lower

theorem RoundsTo.lt (hc : Canonical m e) (hv : RoundsTo m e v) : v < 2 ^ (1024 : ℤ) := by
  have hm : (m : ℚ) + 1 ≤ 2 ^ 53 := by exact_mod_cast hc.lt
  calc
    v ≤ ((m : ℚ) + 1 / 2) * 2 ^ e := hv.upper
    _ < 2 ^ 53 * 2 ^ e := by
      gcongr
      linarith
    _ ≤ 2 ^ 53 * 2 ^ (971 : ℤ) := by
      gcongr
      · exact one_le_two
      · exact hc.greatest
    _ = 2 ^ (1024 : ℤ) := by
      have hexp : (1024 : ℤ) = 53 + 971 := by decide
      rw [hexp, zpow_add₀ two_ne_zero]
      rfl

theorem pos_of_roundsTo (hc : Canonical m e) (hv : RoundsTo m e (c / 10 ^ p)) : 0 < c := by
  apply Nat.pos_of_ne_zero
  rintro rfl
  have hle := hv.le hc
  have hpos : (0 : ℚ) < 2 ^ (-1075 : ℤ) := by positivity
  rw [Nat.cast_zero, zero_div] at hle
  exact absurd hle (not_le.mpr hpos)

/-- What is rounded to a finite double is not too large to be read. -/
theorem magnitude_le (hc : Canonical m e) (hv : RoundsTo m e (c / 10 ^ p)) :
    ((digits c).length : ℤ) + -p ≤ 310 := by
  by_contra hlarge
  have hdigits : (10 : ℚ) ^ ((digits c).length - 1) ≤ c := by
    exact_mod_cast pow_length_digits_le (pos_of_roundsTo hc hv)
  have hpow : (10 : ℚ) ^ (309 + p) ≤ c := by
    refine le_trans ?_ hdigits
    exact pow_le_pow_right₀ (by norm_num) (by omega)
  have hlt := hv.lt hc
  rw [div_lt_iff₀ (by positivity)] at hlt
  have hbound : (2 : ℚ) ^ (1024 : ℤ) ≤ 10 ^ 309 := by
    have hnat : 2 ^ 1024 ≤ 10 ^ 309 := by decide +kernel
    exact_mod_cast hnat
  have hcontra : (10 : ℚ) ^ 309 * 10 ^ p < 10 ^ 309 * 10 ^ p := by
    calc
      (10 : ℚ) ^ 309 * 10 ^ p = 10 ^ (309 + p) := (pow_add _ _ _).symm
      _ ≤ c := hpow
      _ < 2 ^ (1024 : ℤ) * 10 ^ p := hlt
      _ ≤ 10 ^ 309 * 10 ^ p := by gcongr
  exact lt_irrefl _ hcontra

theorem pow_le_of_roundsTo (hc : Canonical m e) (hv : RoundsTo m e (c / 10 ^ p)) :
    (10 : ℚ) ^ p ≤ 2 ^ 1075 * c := by
  have hle := hv.le hc
  rw [le_div_iff₀ (by positivity), zpow_neg, inv_mul_le_iff₀ (by positivity)] at hle
  exact_mod_cast hle

theorem places_lt (hc : Canonical m e) (hv : RoundsTo m e (c / 10 ^ p)) :
    p < 1075 + (c.log2 + 1) := by
  have hdigits : (c : ℚ) < 2 ^ (c.log2 + 1) := by exact_mod_cast Nat.lt_log2_self
  have hpow : (2 : ℚ) ^ p < 2 ^ (1075 + (c.log2 + 1)) := by
    calc
      (2 : ℚ) ^ p ≤ 10 ^ p := pow_le_pow_left₀ (by norm_num) (by norm_num) p
      _ ≤ 2 ^ 1075 * c := pow_le_of_roundsTo hc hv
      _ < 2 ^ 1075 * 2 ^ (c.log2 + 1) := by gcongr
      _ = 2 ^ (1075 + (c.log2 + 1)) := (pow_add _ _ _).symm
  exact (pow_lt_pow_iff_right₀ one_lt_two).mp hpow

/-- What is rounded to a positive double is not too small to be read. -/
theorem le_magnitude (hc : Canonical m e) (hv : RoundsTo m e (c / 10 ^ p)) :
    -330 ≤ ((digits c).length : ℤ) + -p := by
  by_contra hsmall
  have hdigits : (c : ℚ) < 10 ^ (digits c).length := by exact_mod_cast lt_pow_length_digits c
  have hbound : (2 : ℚ) ^ 1075 ≤ 10 ^ 330 := by
    have hnat : 2 ^ 1075 ≤ 10 ^ 330 := by decide +kernel
    exact_mod_cast hnat
  have hcontra : (10 : ℚ) ^ p < 10 ^ p := by
    calc
      (10 : ℚ) ^ p ≤ 2 ^ 1075 * c := pow_le_of_roundsTo hc hv
      _ < 2 ^ 1075 * 10 ^ (digits c).length := by gcongr
      _ ≤ 10 ^ 330 * 10 ^ (digits c).length := by gcongr
      _ = 10 ^ (330 + (digits c).length) := (pow_add _ _ _).symm
      _ ≤ 10 ^ p := pow_le_pow_right₀ (by norm_num) (by omega)
  exact lt_irrefl _ hcontra

end Bounds

/-! ### Reading -/

theorem ofScientific_slow {m c p : ℕ} {e : ℤ} (hc : Canonical m e) (hp : 0 < p)
    (hv : RoundsTo m e (c / 10 ^ p)) :
    UnpackedFloat.ofScientific Format.binary64 c (Int.negOfNat p) =
      .finite .positive m e hc.pos := by
  have hpos := pos_of_roundsTo hc hv
  have hneg : Int.negOfNat p = -(p : ℤ) := Int.negOfNat_eq
  have hlarge : ¬ Int.negOfNat p > 2 ^ 11 := by
    rw [hneg]
    omega
  have hsmall : ¬ Int.negOfNat p < -((2 ^ 11 : ℤ) + c.log2) := by
    have hplaces := places_lt hc hv
    rw [hneg]
    omega
  have hnonneg : ¬ 0 ≤ Int.negOfNat p := by
    rw [hneg]
    omega
  have hpow : (-Int.negOfNat p).toNat = p := by
    rw [hneg]
    omega
  rw [UnpackedFloat.ofScientific, dif_neg hpos.ne', if_neg hlarge, if_neg hsmall, if_neg hnonneg]
  simp only [hpow]
  apply div_eq hpos _ hc
  simpa using hv

theorem ofScientific_fast {m c p : ℕ} {e : ℤ} (hc : Canonical m e)
    (hv : RoundsTo m e (c / 10 ^ p)) (hbits : c < 2 ^ 53)
    (hsize : p < Float.exactlyRepresentablePowersOfTen.size) :
    c.toUInt64.toFloat / Float.exactlyRepresentablePowersOfTen[p] =
      Float.ofModel (.pack (.finite .positive m e hc.pos)) := by
  obtain ⟨m₁, e₁, h₁, hnum, hvalue₁⟩ := unpack_toFloat (pos_of_roundsTo hc hv) hbits
  obtain ⟨m₂, e₂, h₂, hden, hvalue₂⟩ := unpack_powerOfTen hsize
  apply ofModel_div hnum hden hc
  rw [hvalue₁, hvalue₂]
  exact hv

/-- A decimal fraction is read as the double in whose interval it lies. -/
theorem ofScientific_eq {m c p : ℕ} {e : ℤ} (hc : Canonical m e) (hp : 0 < p)
    (hv : RoundsTo m e (c / 10 ^ p)) :
    ofScientific c (-p) = Float.ofModel (.pack (.finite .positive m e hc.pos)) := by
  have hpos := pos_of_roundsTo hc hv
  have hlarge := magnitude_le hc hv
  have hsmall := le_magnitude hc hv
  have hneg : decide (-(p : ℤ) < 0) = true := by
    rw [decide_eq_true_iff]
    omega
  have habs : (-(p : ℤ)).natAbs = p := by omega
  rw [ofScientific, if_neg hpos.ne']
  dsimp only
  rw [if_neg (by omega), if_neg (by omega), hneg, habs, Float.ofScientific]
  split
  · -- few digits and places: one division of two doubles that are exact
    next hfast =>
    exact ofScientific_fast hc hv hfast.1 (by change p < 23; omega)
  · exact congrArg (fun f => Float.ofModel (.pack f)) (ofScientific_slow hc hp hv)

end PageServer.Decimal
