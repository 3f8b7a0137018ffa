import PageServer.Proofs.Decimal.Rounding

/-!
# Doubles and their bits

A double is read off its bits and put together from them again without loss, and
what is read off the bits is what the arithmetic of doubles computes with.
-/

namespace PageServer.Decimal

open Float.Model
open Float.Model.UnpackedFloat

section Bits

variable (b : BitVec Format.binary64.numBits)

theorem toNat_unpackMantissa : (unpackMantissa b).toNat = b.toNat % 2 ^ 52 := by
  rw [unpackMantissa_def, BitVec.extractLsb'_toNat, Nat.shiftRight_zero]

theorem toNat_unpackExponent : (unpackExponent b).toNat = b.toNat / 2 ^ 52 % 2 ^ 11 := by
  rw [unpackExponent_def, BitVec.extractLsb'_toNat, Nat.shiftRight_eq_div_pow]

theorem toNat_unpackSign : (unpackSign b).toNat = b.toNat / 2 ^ 63 := by
  have hlt : b.toNat / 2 ^ 63 < 2 := Nat.div_lt_of_lt_mul b.isLt
  rw [unpackSign_def, BitVec.extractLsb'_toNat, Nat.shiftRight_eq_div_pow]
  exact Nat.mod_eq_of_lt hlt

theorem unpackExponent_eq_ones_iff :
    unpackExponent b = -1#_ ↔ b.toNat / 2 ^ 52 % 2 ^ 11 = 2047 := by
  rw [← BitVec.toNat_inj, toNat_unpackExponent]
  rfl

theorem unpackExponent_eq_zero_iff :
    unpackExponent b = 0#_ ↔ b.toNat / 2 ^ 52 % 2 ^ 11 = 0 := by
  rw [← BitVec.toNat_inj, toNat_unpackExponent]
  rfl

theorem unpackMantissa_eq_zero_iff : unpackMantissa b = 0#_ ↔ b.toNat % 2 ^ 52 = 0 := by
  rw [← BitVec.toNat_inj, toNat_unpackMantissa]
  rfl

theorem toNat_implicit (m : BitVec 52) : (1#1 ++ m).toNat = m.toNat + 2 ^ 52 := by
  have hbits := Nat.two_pow_add_eq_or_of_lt m.isLt 1
  rw [BitVec.toNat_append, Nat.add_comm]
  simpa [Nat.shiftLeft_eq] using hbits.symm

end Bits

/-- What a double stands for, whichever way its parts are kept. -/
def Binary64.ofUnpacked : UnpackedFloat → Binary64
  | .notANumber => .notANumber
  | .infinity s => .infinite (s == .negative)
  | .zero s => .finite (s == .negative) 0 (-1074)
  | .finite s m e _ => .finite (s == .negative) m e

theorem sign_beq_negative (b : BitVec Format.binary64.numBits) :
    (Sign.ofBitVec (unpackSign b) == .negative) = (b.toNat / 2 ^ 63 == 1) := by
  have hsign := toNat_unpackSign b
  have hbit := (unpackSign b).isLt
  rw [Sign.ofBitVec]
  split
  · next hzero =>
    rw [hzero] at hsign
    rw [← hsign]
    rfl
  · next hone =>
    have hne : (unpackSign b).toNat ≠ 0 := fun h => hone (BitVec.toNat_inj.mp h)
    have hnat : b.toNat / 2 ^ 63 = 1 := by omega
    rw [hnat]
    rfl

theorem exponentBias_eq : Format.binary64.exponentBias = 1023 := by
  decide

theorem Binary64.ofFloat_eq (x : Float) : ofFloat x = ofUnpacked x.toModel.unpack := by
  let b : BitVec Format.binary64.numBits := x.toModel.toBits.toBitVec
  have hbits : x.toBits.toNat = b.toNat := rfl
  change _ = ofUnpacked (UnpackedFloat.unpack Format.binary64 b)
  simp only [ofFloat, hbits, Nat.pow_eq]
  rw [← sign_beq_negative b, UnpackedFloat.unpack]
  by_cases hexp : unpackExponent b = -1#_
  · rw [if_pos hexp, if_pos ((unpackExponent_eq_ones_iff b).mp hexp)]
    by_cases hmant : unpackMantissa b = 0#_
    · rw [if_pos hmant, if_pos ((unpackMantissa_eq_zero_iff b).mp hmant)]
      rfl
    · rw [if_neg hmant, if_neg fun h => hmant ((unpackMantissa_eq_zero_iff b).mpr h)]
      rfl
  · rw [if_neg hexp, if_neg fun h => hexp ((unpackExponent_eq_ones_iff b).mpr h)]
    by_cases hzero : unpackExponent b = 0#_
    · rw [if_pos hzero, if_pos ((unpackExponent_eq_zero_iff b).mp hzero)]
      by_cases hmant : unpackMantissa b = 0#_
      · rw [dif_pos hmant, (unpackMantissa_eq_zero_iff b).mp hmant]
        rfl
      · rw [dif_neg hmant]
        simp only [ofUnpacked, toNat_unpackMantissa, hzero]
        rfl
    · rw [if_neg hzero, if_neg fun h => hzero ((unpackExponent_eq_zero_iff b).mpr h)]
      simp only [ofUnpacked, toNat_implicit, toNat_unpackMantissa, toNat_unpackExponent,
        exponentBias_eq]
      rfl

theorem canonical_of_unpack {x : Float} {s : Sign} {m : ℕ} {e : ℤ} {h : 0 < m}
    (hx : x.toModel.unpack = .finite s m e h) : Canonical m e := by
  let b : BitVec Format.binary64.numBits := x.toModel.toBits.toBitVec
  change UnpackedFloat.unpack Format.binary64 b = .finite s m e h at hx
  have hmant : (unpackMantissa b).toNat < 2 ^ 52 := (unpackMantissa b).isLt
  have hexp : (unpackExponent b).toNat < 2048 := (unpackExponent b).isLt
  have hbias : ((Format.binary64.exponentBias : ℤ) +
      (Format.binary64.mantissaBitsWithoutImplicit : ℕ)) = 1075 := by decide
  rw [UnpackedFloat.unpack] at hx
  split at hx
  · split at hx <;> cases hx
  · next hones =>
    have hlt : (unpackExponent b).toNat ≠ 2047 := by
      rw [toNat_unpackExponent]
      exact fun h => hones ((unpackExponent_eq_ones_iff b).mpr h)
    split at hx
    · next hzero =>
      have hnone : (unpackExponent b).toNat = 0 := by
        rw [toNat_unpackExponent]
        exact (unpackExponent_eq_zero_iff b).mp hzero
      split at hx
      · cases hx
      · injection hx with hs hm he
        rw [hnone, hbias] at he
        constructor <;> omega
    · next hzero =>
      have hsome : (unpackExponent b).toNat ≠ 0 := by
        rw [toNat_unpackExponent]
        exact fun h => hzero ((unpackExponent_eq_zero_iff b).mpr h)
      injection hx with hs hm he
      rw [toNat_implicit] at hm
      rw [hbias] at he
      constructor <;> omega

theorem unpack_components_normal (s : Sign) {k m : ℕ} (hk : k ≠ 0) (hlt : k < 2047)
    (hlow : 2 ^ 52 ≤ m) (hhigh : m < 2 ^ 53) (hm : 0 < m) :
    UnpackedFloat.unpack Format.binary64
      (packComponents Format.binary64 s (BitVec.ofNat 11 k) (BitVec.ofNat 52 m)) =
        .finite s m ((k : ℤ) - 1075) hm := by
  have hexp : (BitVec.ofNat 11 k).toNat = k := by
    rw [BitVec.toNat_ofNat]
    omega
  have hones : BitVec.ofNat 11 k ≠ -1#11 := by
    intro h
    have hnat := congrArg BitVec.toNat h
    rw [hexp] at hnat
    exact absurd hnat (by change k ≠ 2047; omega)
  have hzero : BitVec.ofNat 11 k ≠ 0#11 := by
    intro h
    have hnat := congrArg BitVec.toNat h
    rw [hexp] at hnat
    exact hk hnat
  have hmant : (1#1 ++ BitVec.ofNat 52 m).toNat = m := by
    rw [toNat_implicit, BitVec.toNat_ofNat]
    omega
  rw [UnpackedFloat.unpack]
  simp only [unpackExponent_packComponents, unpackMantissa_packComponents,
    unpackSign_packComponents, Sign.ofBitVec_toBitVec]
  rw [if_neg hones, if_neg hzero]
  simp only [hmant, hexp, exponentBias_eq]
  rfl

theorem unpack_components_least (s : Sign) {m : ℕ} (hm : 0 < m) (hhigh : m < 2 ^ 52) :
    UnpackedFloat.unpack Format.binary64
      (packComponents Format.binary64 s 0#11 (BitVec.ofNat 52 m)) = .finite s m (-1074) hm := by
  have hmant : (BitVec.ofNat 52 m).toNat = m := by
    rw [BitVec.toNat_ofNat]
    omega
  have hzero : BitVec.ofNat 52 m ≠ 0#52 := by
    intro h
    have hnat := congrArg BitVec.toNat h
    rw [hmant] at hnat
    exact hm.ne' hnat
  rw [UnpackedFloat.unpack]
  simp only [unpackExponent_packComponents, unpackMantissa_packComponents,
    unpackSign_packComponents, Sign.ofBitVec_toBitVec]
  rw [if_neg (by decide), if_pos trivial, dif_neg hzero]
  simp only [hmant]
  rfl

/-- A double put together from its parts is read off as these parts. -/
theorem unpack_pack (s : Sign) {m : ℕ} {e : ℤ} (h : Canonical m e) :
    (Float.Model.pack (.finite s m e h.pos)).unpack = .finite s m e h.pos := by
  have hlog : m.log2 < 53 := (Nat.log2_lt h.pos.ne').mpr h.lt
  obtain ⟨k, hk⟩ : ∃ k : ℕ, (e + Format.binary64.exponentBias +
      Format.binary64.mantissaBitsWithoutImplicit).toNat = k := ⟨_, rfl⟩
  have hexp : (k : ℤ) = e + 1075 := by
    have hleast := h.least
    rw [exponentBias_eq] at hk
    simp only at hk
    omega
  have hgreatest := h.greatest
  have hfits : ¬ 2 ^ 11 ≤ k + 1 := by omega
  change UnpackedFloat.unpack Format.binary64 (UnpackedFloat.pack Format.binary64 _) = _
  rw [UnpackedFloat.pack]
  simp only [hk]
  rw [if_neg hfits]
  split
  · next hfull =>
    have hlow : 2 ^ 52 ≤ m := by
      have hbits : m.log2 = 52 := by
        simp only [Format.mantissaBits] at hfull
        omega
      rw [← hbits]
      exact Nat.log2_self_le h.pos.ne'
    have hleast := h.least
    have heq : (k : ℤ) - 1075 = e := by omega
    rw [unpack_components_normal s (by omega) (by omega) hlow h.lt h.pos, heq]
  · next hfull =>
    have hlt : m < 2 ^ 52 := by
      apply (Nat.log2_lt h.pos.ne').mp
      simp only [Format.mantissaBits] at hfull
      omega
    have hleast : e = -1074 := h.full.resolve_left (by omega)
    subst hleast
    exact unpack_components_least s h.pos hlt

theorem pack_unpack_toModel (x : Float) : Float.ofModel (.pack x.toModel.unpack) = x :=
  Float.ofBits_toBits x

end PageServer.Decimal
