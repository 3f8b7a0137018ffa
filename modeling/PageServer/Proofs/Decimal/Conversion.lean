import PageServer.Proofs.Decimal.Fixed

/-!
# Whole numbers as doubles

A whole number that is made a double is rounded to 53 bits: to the nearest multiple
of a power of two, and of two such to the one with an even mantissa.
-/

namespace PageServer.Decimal

open Float.Model
open Float.Model.UnpackedFloat

/-- How many of the bits of a number have no room in a mantissa. -/
def excess (n : ℕ) : ℕ :=
  n.log2 - 52

section Mantissa

variable {n q k : ℕ}

theorem IsRounding.bounds {a b : ℕ} {v : ℚ} (h : IsRounding q v) (hlow : (a : ℚ) ≤ v)
    (hhigh : v < b) : a ≤ q ∧ q ≤ b := by
  obtain ⟨hbelow, habove⟩ := abs_le.mp h.near
  rw [Int.cast_natCast] at hbelow habove
  have hlt : (a : ℚ) < q + 1 := by linarith
  have hgt : (q : ℚ) < b + 1 := by linarith
  exact ⟨Nat.lt_succ_iff.mp (by exact_mod_cast hlt), Nat.lt_succ_iff.mp (by exact_mod_cast hgt)⟩

/-- A number with more bits than a mantissa, in units of its double. -/
theorem excess_bounds (hn : 2 ^ 53 ≤ n) :
    (2 ^ 52 : ℕ) ≤ (n / 2 ^ excess n : ℚ) ∧ (n / 2 ^ excess n : ℚ) < (2 ^ 53 : ℕ) := by
  have hlog : 53 ≤ n.log2 := (Nat.le_log2 (by omega)).mpr hn
  have hlow : 2 ^ 52 * 2 ^ excess n ≤ n := by
    have hpow : 2 ^ 52 * 2 ^ excess n = 2 ^ n.log2 := by
      rw [← pow_add, excess]
      congr 1
      omega
    rw [hpow]
    exact Nat.log2_self_le (by omega)
  have hhigh : n < 2 ^ 53 * 2 ^ excess n := by
    have hpow : 2 ^ 53 * 2 ^ excess n = 2 ^ (n.log2 + 1) := by
      rw [← pow_add, excess]
      congr 1
      omega
    rw [hpow]
    exact Nat.lt_log2_self
  have hunit : (0 : ℚ) < 2 ^ excess n := by positivity
  constructor
  · rw [le_div_iff₀ hunit]
    exact_mod_cast hlow
  · rw [div_lt_iff₀ hunit]
    exact_mod_cast hhigh

theorem IsRounding.roundsTo {v : ℚ} (h : IsRounding q (v / 2 ^ k))
    (hlow : (2 ^ 52 : ℕ) ≤ v / 2 ^ k) : RoundsTo q k v := by
  have hunit : (0 : ℚ) < 2 ^ (k : ℤ) := by positivity
  rw [← zpow_natCast] at h hlow
  obtain ⟨hbelow, habove⟩ := abs_le.mp h.near
  rw [Int.cast_natCast] at hbelow habove
  constructor
  · exact (le_div_iff₀ hunit).mp (by linarith)
  · rintro rfl -
    exact (le_div_iff₀ hunit).mp (by linarith)
  · exact (div_le_iff₀ hunit).mp (by linarith)
  · intro hodd
    have htie : |v / 2 ^ (k : ℤ) - (q : ℤ)| ≠ 1 / 2 := by
      intro htie
      have heven : q % 2 = 0 := by exact_mod_cast Int.even_iff.mp (h.even htie)
      omega
    obtain ⟨hstrictly, hstrict⟩ := abs_lt.mp (lt_of_le_of_ne h.near htie)
    rw [Int.cast_natCast] at hstrictly hstrict
    exact ⟨(lt_div_iff₀ hunit).mp (by linarith), (div_lt_iff₀ hunit).mp (by linarith)⟩

/-- The rounded number is a double; a mantissa that became too long is halved. -/
theorem exists_canonical (hn : 2 ^ 53 ≤ n) (hsmall : n ≤ 2 ^ 63)
    (h : IsRounding q (n / 2 ^ excess n)) :
    ∃ m e, Canonical m e ∧ RoundsTo m e n ∧ (m * 2 ^ e : ℚ) = q * 2 ^ excess n := by
  obtain ⟨hlow, hhigh⟩ := excess_bounds hn
  obtain ⟨hleast, hmost⟩ := h.bounds hlow hhigh
  have hrounds := h.roundsTo hlow
  have hexp : excess n ≤ 11 := by
    have hlog := log2_le_of_le hsmall
    rw [excess]
    omega
  obtain hlong | hshort := hmost.eq_or_lt
  · subst hlong
    have hdouble : (2 : ℚ) ^ ((excess n : ℤ) + 1) = 2 * 2 ^ (excess n : ℤ) := by
      rw [zpow_add₀ two_ne_zero, zpow_one, mul_comm]
    have hunit : (0 : ℚ) < 2 ^ (excess n : ℤ) := by positivity
    have hlower := hrounds.lower
    rw [zpow_natCast] at hlower hdouble hunit
    rw [div_lt_iff₀ hunit] at hhigh
    push_cast at hlower hhigh
    refine ⟨2 ^ 52, excess n + 1, ⟨by norm_num, by norm_num, by omega, by omega, .inl le_rfl⟩,
      ⟨?_, fun _ _ => ?_, ?_, fun hodd => absurd hodd (by norm_num)⟩, ?_⟩
    all_goals
      rw [hdouble]
      push_cast
      linarith
  · have hpos : 0 < q := lt_of_lt_of_le (by norm_num) hleast
    refine ⟨q, excess n, ⟨hpos, hshort, by omega, by omega, .inl hleast⟩, hrounds, ?_⟩
    rw [zpow_natCast]

end Mantissa

/-! ### Long and short numbers -/

section Magnitude

variable {n : ℕ}

theorem roundWithAccuracy_exact {q m : ℕ} {t e : ℤ} (hc : Canonical m e)
    (hrounds : RoundsTo m e (q * 2 ^ t)) (ht : t ≤ target q t) :
    roundWithAccuracy Format.binary64 .positive q t .exact = .finite .positive m e hc.pos := by
  apply roundWithAccuracy_eq hc hrounds _ ht
  change (q * 2 ^ t / 2 ^ t : ℚ) = q
  field_simp

theorem ofScientific_nat {m : ℕ} {e : ℤ} (hn : n ≠ 0) (hc : Canonical m e)
    (hrounds : RoundsTo m e n) :
    UnpackedFloat.ofScientific Format.binary64 n 0 = .finite .positive m e hc.pos := by
  have hbits : Format.binary64.exponentBits = 11 := rfl
  have hmant : Format.binary64.mantissaBits = 53 := rfl
  have hshift : n <<< Format.binary64.mantissaBits * 10 ^ Int.toNat 0 = n * 2 ^ 53 := by
    rw [hmant, Nat.shiftLeft_eq, Int.toNat_zero, pow_zero, mul_one]
  rw [UnpackedFloat.ofScientific, dif_neg hn, hbits, if_neg (by decide), if_neg (by omega),
    if_pos le_rfl]
  change roundWithAccuracy Format.binary64 .positive
    (n <<< Format.binary64.mantissaBits * 10 ^ Int.toNat 0)
    (-(Format.binary64.mantissaBits : ℤ) + 0) .exact = _
  rw [hshift, hmant, add_zero]
  apply roundWithAccuracy_exact hc
  · have hvalue := mul_two_pow_value n 53
    rw [hvalue]
    exact hrounds
  · rw [target, log2_mul_two_pow hn]
    push_cast
    omega

theorem exactValue_ofNat_of_long (hn : 2 ^ 53 ≤ n) {m : ℕ} {e : ℤ} (hc : Canonical m e)
    (hrounds : RoundsTo m e n) : exactValue (Float.ofNat n) = m * 2 ^ e := by
  change exactValue (Float.ofScientific n false 0) = _
  rw [Float.ofScientific]
  split
  · next hshort => exact absurd hshort.1 (not_lt.mpr hn)
  · change valueOfUnpacked (Float.Model.pack (UnpackedFloat.ofScientific _ n 0)).unpack = _
    rw [ofScientific_nat (by omega) hc hrounds, unpack_pack .positive hc]
    exact one_mul _

theorem representable_of_short (hn : n < 2 ^ 53) : Representable n := by
  obtain rfl | hpos := Nat.eq_zero_or_pos n
  · exact_mod_cast Representable.zero
  · have hlog : n.log2 < 53 := (Nat.log2_lt hpos.ne').mpr hn
    obtain ⟨k, hk⟩ : ∃ k, n.log2 + k = 52 := ⟨52 - n.log2, by omega⟩
    have hvalue : (n : ℚ) = signum .positive * ((n * 2 ^ k : ℕ) * 2 ^ (-k : ℤ)) := by
      rw [mul_two_pow_value, signum_positive, one_mul]
    rw [hvalue]
    exact .finite .positive (canonical_mul_two_pow hpos hk)

theorem exactValue_ofNat_of_short (hn : n < 2 ^ 53) : exactValue (Float.ofNat n) = n := by
  obtain rfl | hpos := Nat.eq_zero_or_pos n
  · have hzero : Float.ofNat 0 = Float.ofModel (.pack (.zero .positive)) := by decide +kernel
    rw [hzero, exactValue_zero, Nat.cast_zero]
  · cases roundedTo_ofNat hpos.ne' with
    | finite _ h =>
      have hself := representable_of_short hn
      exact le_antisymm (h.below n hself le_rfl) (h.above n hself le_rfl)
    | infinite s hx _ =>
      have hfinite : (Float.ofNat n).toModel.unpack.isFinite = true := isFinite_ofNat (by omega)
      rw [hx] at hfinite
      cases hfinite

theorem exists_exactValue_ofNat (hn : n ≤ 2 ^ 63) :
    ∃ q : ℕ, IsRounding q (n / 2 ^ excess n) ∧
      exactValue (Float.ofNat n) = q * 2 ^ excess n := by
  have hrounding : IsRounding (Ratio.mk n (2 ^ excess n)).nearestEven (n / 2 ^ excess n) := by
    have hratio := @Ratio.isRounding_nearestEven ⟨n, 2 ^ excess n⟩ (Nat.two_pow_pos _)
    rw [Ratio.value] at hratio
    exact_mod_cast hratio
  obtain hshort | hlong := lt_or_ge n (2 ^ 53)
  · have hnone : excess n = 0 := by
      obtain rfl | hpos := Nat.eq_zero_or_pos n
      · rfl
      · have hbits := (Nat.log2_lt hpos.ne').mpr hshort
        rw [excess]
        omega
    refine ⟨n, ?_, ?_⟩
    · rw [hnone, pow_zero, div_one]
      exact ⟨by simp, by simp⟩
    · rw [hnone, pow_zero, mul_one]
      exact exactValue_ofNat_of_short hshort
  · obtain ⟨m, e, hc, hrounds, hvalue⟩ := exists_canonical hlong hn hrounding
    refine ⟨_, hrounding, ?_⟩
    rw [exactValue_ofNat_of_long hlong hc hrounds, hvalue]

end Magnitude

/-- A whole number that is made a double is rounded to the nearest multiple of the power
of two that is beyond the mantissa, of two such to the one of an even factor. -/
theorem exists_exactValue_ofInt (v : Int64) :
    ∃ q : ℤ, IsRounding q (v.toInt / 2 ^ excess v.toInt.natAbs) ∧
      exactValue (Float.ofInt v.toInt) = q * 2 ^ excess v.toInt.natAbs := by
  have hlow := v.le_toInt
  have hhigh := v.toInt_lt
  generalize v.toInt = i at hlow hhigh
  obtain ⟨q, hrounding, hvalue⟩ := @exists_exactValue_ofNat i.natAbs (by omega)
  cases i with
  | ofNat n => exact ⟨q, hrounding, hvalue⟩
  | negSucc n =>
    have hcast : ((Int.negSucc n : ℤ) : ℚ) = -((n.succ : ℕ) : ℚ) := by
      exact_mod_cast Int.negSucc_eq n
    have hneg : exactValue (Float.ofInt (Int.negSucc n)) = -exactValue (Float.ofNat n.succ) :=
      exactValue_neg (isFinite_ofNat (by omega))
    refine ⟨-q, ?_, ?_⟩
    · rw [hcast, neg_div]
      exact hrounding.neg
    · rw [hneg]
      push_cast
      rw [neg_mul, neg_inj]
      exact hvalue

end PageServer.Decimal
