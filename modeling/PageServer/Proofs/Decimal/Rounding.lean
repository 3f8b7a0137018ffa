import Mathlib
import PageServer.Decimal.Binary64

/-!
# Rounding to doubles

A division of doubles is computed to a whole number of units, with two more bits
that tell how much is missing, and then rounded. Whatever the unit, the result
is the double in whose interval the exact quotient lies.
-/

namespace PageServer.Decimal

open Float.Model
open Float.Model.UnpackedFloat

/-- The mantissa is the whole part of the number, and its two bits tell where in
the next half or whole the number lies. -/
def Approximates (em : ExtendedMantissa) (v : ℚ) : Prop :=
  match em.roundBit, em.stickyBit with
  | false, false => v = em.mantissa
  | false, true => em.mantissa < v ∧ v < em.mantissa + 1 / 2
  | true, false => v = em.mantissa + 1 / 2
  | true, true => em.mantissa + 1 / 2 < v ∧ v < em.mantissa + 1

theorem Approximates.floor {em : ExtendedMantissa} {v : ℚ} (h : Approximates em v) :
    (em.mantissa : ℚ) ≤ v ∧ v < em.mantissa + 1 := by
  obtain ⟨m, r, s⟩ := em
  cases r <;> cases s <;> simp only [Approximates] at h <;> constructor <;> linarith

theorem Approximates.whole {q : ℕ} {acc : Accuracy} {v : ℚ}
    (h : Approximates (.ofMantissaAndAccuracy q acc) v) : (q : ℚ) ≤ v ∧ v < q + 1 := by
  have hfloor := h.floor
  cases acc with
  | exact => exact hfloor
  | inexact o => cases o <;> exact hfloor

theorem Approximates.shiftRightOne {em : ExtendedMantissa} {v : ℚ} (h : Approximates em v) :
    Approximates em.shiftRightOne (v / 2) := by
  obtain ⟨m, r, s⟩ := em
  have hm : (m : ℚ) = 2 * (m / 2 : ℕ) + (m % 2 : ℕ) := by
    exact_mod_cast (Nat.div_add_mod m 2).symm
  obtain hbit | hbit : m % 2 = 0 ∨ m % 2 = 1 := by omega
  all_goals
    rw [hbit] at hm
    push_cast at hm
    cases r <;> cases s <;>
      simp only [Approximates, ExtendedMantissa.shiftRightOne, hbit, Nat.reduceBNe] at h ⊢ <;>
      norm_num at h ⊢ <;> first | linarith | (constructor <;> linarith)

theorem Approximates.shiftRight {em : ExtendedMantissa} {v : ℚ} (h : Approximates em v) (n : ℕ) :
    Approximates (em >>> n) (v / 2 ^ n) := by
  change Approximates (n.repeat ExtendedMantissa.shiftRightOne em) _
  induction n with
  | zero =>
    rw [pow_zero, div_one]
    exact h
  | succ n ih =>
    rw [pow_succ, ← div_div]
    exact ih.shiftRightOne

/-- What lies within half a unit of a whole number is rounded to it; at the ends
only if it is even. -/
theorem Approximates.roundedMantissa {em : ExtendedMantissa} {v : ℚ} {n : ℕ}
    (h : Approximates em v) (hlow : (n : ℚ) - 1 / 2 ≤ v) (hhigh : v ≤ n + 1 / 2)
    (hodd : n % 2 = 1 → (n : ℚ) - 1 / 2 < v ∧ v < n + 1 / 2) : em.roundedMantissa = n := by
  obtain ⟨hle, hlt⟩ := h.floor
  obtain ⟨m, r, s⟩ := em
  have hmn : m ≤ n := by
    have hbound : (m : ℚ) < n + 1 := by
      simp only at hle
      linarith
    exact Nat.lt_succ_iff.mp (by exact_mod_cast hbound)
  have hnm : n ≤ m + 1 := by
    have hbound : (n : ℚ) < m + 1 + 1 := by
      simp only at hlt
      linarith
    exact Nat.lt_succ_iff.mp (by exact_mod_cast hbound)
  obtain rfl | rfl : n = m ∨ n = m + 1 := by omega
  · -- the whole part itself: at most half a unit is missing, and half only if it is even
    cases r <;> cases s <;> simp only [Approximates] at h <;>
      simp only [ExtendedMantissa.roundedMantissa, ExtendedMantissa.accuracy,
        Accuracy.roundToNearestEven]
    · obtain heven | hbit : n % 2 = 0 ∨ n % 2 = 1 := by omega
      · omega
      · have hstrict := (hodd hbit).2
        linarith
    · linarith [h.1]
  · -- one more: half a unit is missing at least
    push_cast at hlow hhigh hodd
    cases r <;> cases s <;> simp only [Approximates] at h <;>
      simp only [ExtendedMantissa.roundedMantissa, ExtendedMantissa.accuracy,
        Accuracy.roundToNearestEven]
    · linarith
    · linarith [h.2]
    · obtain heven | hbit : (m + 1) % 2 = 0 ∨ (m + 1) % 2 = 1 := by omega
      · omega
      · have hstrict := (hodd hbit).1
        linarith

/-- Mantissa and exponent of a positive double: the mantissa has all its bits
unless the exponent is the least one. -/
structure Canonical (m : ℕ) (e : ℤ) : Prop where
  pos : 0 < m
  lt : m < 2 ^ 53
  least : -1074 ≤ e
  greatest : e ≤ 971
  full : 2 ^ 52 ≤ m ∨ e = -1074

/-- So near to `m * 2 ^ e` that it is rounded to it. -/
structure RoundsTo (m : ℕ) (e : ℤ) (v : ℚ) : Prop where
  lower : ((m : ℚ) - 1 / 2) * 2 ^ e ≤ v
  binade : m = 2 ^ 52 → -1074 < e → ((m : ℚ) - 1 / 4) * 2 ^ e ≤ v
  upper : v ≤ ((m : ℚ) + 1 / 2) * 2 ^ e
  strict : m % 2 = 1 → ((m : ℚ) - 1 / 2) * 2 ^ e < v ∧ v < ((m : ℚ) + 1 / 2) * 2 ^ e

section Target

variable {q : ℕ} {t a : ℤ} {v : ℚ}

/-- The exponent that a number with the whole part `q` at the exponent `t` is
shifted to. -/
def target (q : ℕ) (t : ℤ) : ℤ :=
  max ((q.log2 : ℤ) + t - 52) (-1074)

theorem targetExponent_eq (q : ℕ) (t : ℤ) :
    Format.binary64.targetExponent (totalExponent q t) = target q t := by
  simp only [Format.targetExponent, totalExponent, Format.mantissaBits, Format.minExponent, target]
  norm_num
  omega

theorem lt_zpow_of_floor (hv : v / 2 ^ t < q + 1) : v < 2 ^ ((q.log2 : ℤ) + 1 + t) := by
  have hunit : (0 : ℚ) < 2 ^ t := by positivity
  have hq : (q : ℚ) + 1 ≤ 2 ^ (q.log2 + 1) := by exact_mod_cast Nat.lt_log2_self
  have hbits : (2 : ℚ) ^ ((q.log2 : ℤ) + 1) = 2 ^ (q.log2 + 1) := by
    exact_mod_cast zpow_natCast (2 : ℚ) (q.log2 + 1)
  rw [zpow_add₀ two_ne_zero, hbits]
  calc
    v < (q + 1) * 2 ^ t := (div_lt_iff₀ hunit).mp hv
    _ ≤ 2 ^ (q.log2 + 1) * 2 ^ t := mul_le_mul_of_nonneg_right hq hunit.le

theorem zpow_le_of_floor (hq : q ≠ 0) (hv : (q : ℚ) ≤ v / 2 ^ t) :
    2 ^ ((q.log2 : ℤ) + t) ≤ v := by
  have hunit : (0 : ℚ) < 2 ^ t := by positivity
  have hbits : (2 : ℚ) ^ q.log2 ≤ q := by exact_mod_cast Nat.log2_self_le hq
  rw [zpow_add₀ two_ne_zero, zpow_natCast]
  calc
    (2 : ℚ) ^ q.log2 * 2 ^ t ≤ q * 2 ^ t := mul_le_mul_of_nonneg_right hbits hunit.le
    _ ≤ v := (le_div_iff₀ hunit).mp hv

theorem le_target (hv : v / 2 ^ t < q + 1) (hlow : 2 ^ (52 + a) ≤ v) : a ≤ target q t := by
  have hpow : (2 : ℚ) ^ (52 + a) < 2 ^ ((q.log2 : ℤ) + 1 + t) :=
    lt_of_le_of_lt hlow (lt_zpow_of_floor hv)
  have hexp := (zpow_lt_zpow_iff_right₀ (one_lt_two : (1 : ℚ) < 2)).mp hpow
  rw [target]
  omega

theorem target_le (hv : (q : ℚ) ≤ v / 2 ^ t) (ht : t ≤ target q t) (hleast : -1074 ≤ a)
    (hhigh : v < 2 ^ (53 + a)) : target q t ≤ a := by
  by_cases hq : q = 0
  · subst hq
    simp only [target, Nat.log2_zero] at ht ⊢
    omega
  · have hpow : (2 : ℚ) ^ ((q.log2 : ℤ) + t) < 2 ^ (53 + a) :=
      lt_of_le_of_lt (zpow_le_of_floor hq hv) hhigh
    have hexp := (zpow_lt_zpow_iff_right₀ (one_lt_two : (1 : ℚ) < 2)).mp hpow
    rw [target]
    omega

theorem Approximates.shiftToTarget {acc : Accuracy}
    (h : Approximates (.ofMantissaAndAccuracy q acc) (v / 2 ^ t)) (ht : t ≤ target q t) :
    ∃ em, shiftToTargetExponent Format.binary64 q t acc = (em, target q t) ∧
      Approximates em (v / 2 ^ target q t) := by
  refine ⟨ExtendedMantissa.ofMantissaAndAccuracy q acc >>> (target q t - t).toNat, ?_, ?_⟩
  · have hexp : t + ((target q t - t).toNat : ℤ) = target q t := by omega
    rw [shiftToTargetExponent, targetExponent_eq, shiftToExponent]
    exact congrArg (Prod.mk _) hexp
  · have hpow : (2 : ℚ) ^ target q t = 2 ^ t * 2 ^ (target q t - t).toNat := by
      rw [← zpow_natCast, ← zpow_add₀ two_ne_zero]
      congr 1
      omega
    rw [hpow, ← div_div]
    exact h.shiftRight _

end Target

theorem Canonical.target_eq {m : ℕ} {e : ℤ} (h : Canonical m e) : target m e = e := by
  have hlog : m.log2 < 53 := (Nat.log2_lt h.pos.ne').mpr h.lt
  have hleast := h.least
  obtain hfull | hfull := h.full
  · have hbits : 52 ≤ m.log2 := (Nat.le_log2 h.pos.ne').mpr hfull
    rw [target]
    omega
  · rw [target]
    omega

/-- A mantissa that is not too long stays as it is. -/
theorem shiftToTarget_of_target_le {m : ℕ} {e : ℤ} (h : target m e ≤ e) :
    shiftToTargetExponent Format.binary64 m e .exact = (⟨m, false, false⟩, e) := by
  have hstay : (target m e - e).toNat = 0 := by omega
  rw [shiftToTargetExponent, targetExponent_eq, shiftToExponent, hstay]
  exact congrArg (Prod.mk _) (add_zero e)

theorem Canonical.shiftToTarget {m : ℕ} {e : ℤ} (h : Canonical m e) :
    shiftToTargetExponent Format.binary64 m e .exact = (⟨m, false, false⟩, e) :=
  shiftToTarget_of_target_le h.target_eq.le

/-- A mantissa that became too long by rounding is halved. -/
theorem shiftToTarget_carry {e : ℤ} (he : -1074 < e) :
    shiftToTargetExponent Format.binary64 (2 ^ 53) (e - 1) .exact =
      (⟨2 ^ 52, false, false⟩, e) := by
  have hone : (target (2 ^ 53) (e - 1) - (e - 1)).toNat = 1 := by
    rw [target, Nat.log2_two_pow]
    omega
  rw [shiftToTargetExponent, targetExponent_eq, shiftToExponent, hone]
  exact congrArg (Prod.mk _) (sub_add_cancel e 1)

section Interval

variable {q m : ℕ} {t e : ℤ} {v : ℚ}

theorem RoundsTo.scaled (hv : RoundsTo m e v) :
    (m : ℚ) - 1 / 2 ≤ v / 2 ^ e ∧ v / 2 ^ e ≤ m + 1 / 2 ∧
      (m % 2 = 1 → (m : ℚ) - 1 / 2 < v / 2 ^ e ∧ v / 2 ^ e < m + 1 / 2) := by
  have hunit : (0 : ℚ) < 2 ^ e := by positivity
  refine ⟨(le_div_iff₀ hunit).mpr hv.lower, (div_le_iff₀ hunit).mpr hv.upper, fun hodd => ?_⟩
  exact ⟨(lt_div_iff₀ hunit).mpr (hv.strict hodd).1, (div_lt_iff₀ hunit).mpr (hv.strict hodd).2⟩

/-- Below the double with the least full mantissa its interval has a quarter of a
unit only. -/
theorem RoundsTo.of_lt (hc : Canonical m e) (hv : RoundsTo m e v) (he : -1074 < e)
    (hlt : v / 2 ^ e < 2 ^ 52) : m = 2 ^ 52 ∧ 2 ^ 52 - 1 / 4 ≤ v / 2 ^ e := by
  have hunit : (0 : ℚ) < 2 ^ e := by positivity
  have hfull : 2 ^ 52 ≤ m := hc.full.resolve_right he.ne'
  have hbound : (m : ℚ) < 2 ^ 52 + 1 := by linarith [hv.scaled.1]
  have hm : m = 2 ^ 52 := le_antisymm (Nat.lt_succ_iff.mp (by exact_mod_cast hbound)) hfull
  have hbinade := (le_div_iff₀ hunit).mpr (hv.binade hm he)
  rw [hm] at hbinade
  exact ⟨hm, by exact_mod_cast hbinade⟩

theorem target_below (hle : (q : ℚ) ≤ v / 2 ^ t) (hlt : v / 2 ^ t < q + 1) (ht : t ≤ target q t)
    (he : -1074 < e) (hfine : (2 : ℚ) ^ 52 - 1 / 4 ≤ v / 2 ^ e) (hpower : v / 2 ^ e < 2 ^ 52) :
    target q t = e - 1 := by
  have hunit : (0 : ℚ) < 2 ^ e := by positivity
  apply le_antisymm
  · apply target_le hle ht (by omega)
    have hexp : 53 + (e - 1) = 52 + e := by ring
    rw [hexp, zpow_add₀ two_ne_zero]
    exact (div_lt_iff₀ hunit).mp (by exact_mod_cast hpower)
  · apply le_target hlt
    have hexp : 52 + (e - 1) = 51 + e := by ring
    rw [hexp, zpow_add₀ two_ne_zero]
    apply (le_div_iff₀ hunit).mp
    norm_num at hfine ⊢
    linarith

theorem target_within (hle : (q : ℚ) ≤ v / 2 ^ t) (hlt : v / 2 ^ t < q + 1) (ht : t ≤ target q t)
    (hc : Canonical m e) (hv : RoundsTo m e v) (hpower : -1074 < e → 2 ^ 52 ≤ v / 2 ^ e) :
    target q t = e := by
  have hunit : (0 : ℚ) < 2 ^ e := by positivity
  have hm : (m : ℚ) + 1 ≤ 2 ^ 53 := by exact_mod_cast hc.lt
  apply le_antisymm
  · apply target_le hle ht hc.least
    rw [zpow_add₀ two_ne_zero]
    apply (div_lt_iff₀ hunit).mp
    have hupper := hv.scaled.2.1
    norm_num at hm hupper ⊢
    linarith
  · obtain he | he : e = -1074 ∨ -1074 < e := by
      have hleast := hc.least
      omega
    · rw [he]
      exact le_max_right _ _
    · apply le_target hlt
      rw [zpow_add₀ two_ne_zero]
      apply (le_div_iff₀ hunit).mp
      exact_mod_cast hpower he

end Interval

/-- Rounding finds the double in whose interval the number lies, if the number
was not known to fewer bits than the double has. -/
theorem roundWithAccuracy_eq {s : Sign} {q m : ℕ} {t e : ℤ} {acc : Accuracy} {v : ℚ}
    (hc : Canonical m e) (hv : RoundsTo m e v)
    (hq : Approximates (.ofMantissaAndAccuracy q acc) (v / 2 ^ t)) (ht : t ≤ target q t) :
    roundWithAccuracy Format.binary64 s q t acc = .finite s m e hc.pos := by
  obtain ⟨hle, hlt⟩ := hq.whole
  obtain ⟨em, hshift, hem⟩ := hq.shiftToTarget ht
  rw [roundWithAccuracy, hshift]
  by_cases hbelow : v / 2 ^ e < 2 ^ 52 ∧ -1074 < e
  · -- just below a power of two: in the finer binade below it is rounded up to that power
    obtain ⟨hpower, he⟩ := hbelow
    obtain ⟨rfl, hfine⟩ := hv.of_lt hc he hpower
    have htarget : target q t = e - 1 := target_below hle hlt ht he hfine hpower
    have hround : em.roundedMantissa = 2 ^ 53 := by
      have hhalf : v / 2 ^ (e - 1) = 2 * (v / 2 ^ e) := by
        rw [zpow_sub₀ two_ne_zero, zpow_one]
        field_simp
      rw [htarget, hhalf] at hem
      apply hem.roundedMantissa
      all_goals norm_num at hfine hpower ⊢
      all_goals linarith
    dsimp only
    rw [hround, htarget, shiftToTarget_carry he]
    rfl
  · have htarget : target q t = e := target_within hle hlt ht hc hv
      fun he => not_lt.mp fun h => hbelow ⟨h, he⟩
    have hround : em.roundedMantissa = m := by
      rw [htarget] at hem
      exact hem.roundedMantissa hv.scaled.1 hv.scaled.2.1 hv.scaled.2.2
    dsimp only
    rw [hround, htarget, hc.shiftToTarget]
    exact dif_neg hc.pos.ne'

/-! ### Division -/

theorem approximates_div (n : ℕ) {d : ℕ} (hd : 0 < d) :
    Approximates (.ofMantissaAndAccuracy (n / d) (accuracyOfFraction (n % d) d)) ((n : ℚ) / d) := by
  have hden : (0 : ℚ) < d := by exact_mod_cast hd
  have hsplit : (n : ℚ) / d = (n / d : ℕ) + ((n % d : ℕ) : ℚ) / d := by
    have hnat : (n : ℚ) = d * (n / d : ℕ) + (n % d : ℕ) := by
      exact_mod_cast (Nat.div_add_mod n d).symm
    rw [hnat]
    field_simp
  have hlt : ((n % d : ℕ) : ℚ) / d < 1 := by
    rw [div_lt_one hden]
    exact_mod_cast Nat.mod_lt n hd
  rw [hsplit]
  by_cases hzero : n % d = 0
  · simp [accuracyOfFraction, hzero, Approximates, ExtendedMantissa.ofMantissaAndAccuracy]
  · have hpos : (0 : ℚ) < ((n % d : ℕ) : ℚ) / d := by
      have hrest : (0 : ℚ) < (n % d : ℕ) := by exact_mod_cast Nat.pos_of_ne_zero hzero
      positivity
    rw [accuracyOfFraction, if_neg hzero]
    cases hcompare : compare (2 * (n % d)) d with
    | lt =>
      have hhalf : ((n % d : ℕ) : ℚ) / d < 1 / 2 := by
        have hnat : (2 : ℚ) * (n % d : ℕ) < d := by exact_mod_cast Nat.compare_eq_lt.mp hcompare
        rw [div_lt_iff₀ hden]
        linarith
      change ((n / d : ℕ) : ℚ) < _ ∧ _ < ((n / d : ℕ) : ℚ) + 1 / 2
      constructor <;> linarith
    | eq =>
      have hnat : (2 : ℚ) * (n % d : ℕ) = d := by exact_mod_cast Nat.compare_eq_eq.mp hcompare
      have hhalf : ((n % d : ℕ) : ℚ) / d = 1 / 2 := by
        rw [div_eq_iff hden.ne']
        linarith
      rw [hhalf]
      rfl
    | gt =>
      have hhalf : 1 / 2 < ((n % d : ℕ) : ℚ) / d := by
        have hnat : (d : ℚ) < 2 * (n % d : ℕ) := by exact_mod_cast Nat.compare_eq_gt.mp hcompare
        rw [lt_div_iff₀ hden]
        linarith
      change ((n / d : ℕ) : ℚ) + 1 / 2 < _ ∧ _ < ((n / d : ℕ) : ℚ) + 1
      constructor <;> linarith

theorem zpow_le_ratio {m₁ m₂ : ℕ} {e₁ e₂ : ℤ} (h₁ : 0 < m₁) (h₂ : 0 < m₂) :
    (2 : ℚ) ^ (totalExponent m₁ e₁ - totalExponent m₂ e₂ - 1) ≤ m₁ * 2 ^ e₁ / (m₂ * 2 ^ e₂) := by
  have hnum : (2 : ℚ) ^ ((m₁.log2 : ℤ) + e₁) ≤ m₁ * 2 ^ e₁ := by
    have hbits : (2 : ℚ) ^ m₁.log2 ≤ m₁ := by exact_mod_cast Nat.log2_self_le h₁.ne'
    rw [zpow_add₀ two_ne_zero, zpow_natCast]
    gcongr
  have hden : (m₂ : ℚ) * 2 ^ e₂ ≤ 2 ^ ((m₂.log2 : ℤ) + 1 + e₂) := by
    have hbits : (m₂ : ℚ) ≤ 2 ^ (m₂.log2 + 1) := by exact_mod_cast Nat.lt_log2_self.le
    rw [zpow_add₀ two_ne_zero, ← Nat.cast_succ, zpow_natCast]
    gcongr
  have hpos : (0 : ℚ) < m₂ * 2 ^ e₂ := by
    have hcast : (0 : ℚ) < m₂ := by exact_mod_cast h₂
    positivity
  have hexp : totalExponent m₁ e₁ - totalExponent m₂ e₂ - 1 =
      ((m₁.log2 : ℤ) + e₁) - ((m₂.log2 : ℤ) + 1 + e₂) := by
    rw [totalExponent, totalExponent]
    ring
  rw [hexp, zpow_sub₀ two_ne_zero]
  gcongr

/-- A quotient is rounded to the double in whose interval it lies. -/
theorem div_eq {s₁ s₂ : Sign} {m₁ m₂ m : ℕ} {e₁ e₂ e : ℤ} (h₁ : 0 < m₁) (h₂ : 0 < m₂)
    (hc : Canonical m e) (hv : RoundsTo m e (m₁ * 2 ^ e₁ / (m₂ * 2 ^ e₂))) :
    UnpackedFloat.div Format.binary64 (.finite s₁ m₁ e₁ h₁) (.finite s₂ m₂ e₂ h₂) =
      .finite (s₁ / s₂) m e hc.pos := by
  let d := totalExponent m₁ e₁ - totalExponent m₂ e₂
  let t := min (e₁ - e₂) (Format.binary64.targetExponent d)
  let n := m₁ <<< (e₁ - e₂ - t).toNat
  have hden : (m₂ : ℚ) ≠ 0 := by exact_mod_cast h₂.ne'
  have hquotient : (n : ℚ) / m₂ = m₁ * 2 ^ e₁ / (m₂ * 2 ^ e₂) / 2 ^ t := by
    have hshift : (2 : ℚ) ^ (e₁ - e₂ - t).toNat = 2 ^ e₁ / 2 ^ e₂ / 2 ^ t := by
      rw [← zpow_sub₀ two_ne_zero, ← zpow_sub₀ two_ne_zero, ← zpow_natCast]
      congr 1
      omega
    have hcast : (n : ℚ) = m₁ * 2 ^ (e₁ - e₂ - t).toNat := by
      exact_mod_cast Nat.shiftLeft_eq m₁ _
    rw [hcast, hshift]
    field_simp
  have happrox := approximates_div n h₂
  rw [hquotient] at happrox
  have hd : d - 53 ≤ target (n / m₂) t := by
    apply le_target happrox.whole.2
    have hexp : 52 + (d - 53) = d - 1 := by ring
    rw [hexp]
    exact zpow_le_ratio h₁ h₂
  have ht : t ≤ target (n / m₂) t := by
    have hmin : t ≤ max (d - 53) (-1074) := min_le_right _ _
    have hleast : -1074 ≤ target (n / m₂) t := le_max_right _ _
    omega
  exact roundWithAccuracy_eq hc hv happrox ht

end PageServer.Decimal
