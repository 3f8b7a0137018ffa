import PageServer.Decimal.Shortest
import PageServer.Proofs.Decimal.Digits
import PageServer.Proofs.Decimal.Rounding

/-!
# The fewest digits lie near enough

The decimal that is chosen for a double lies in the interval of the double: on
the finest grid that is tried, steps are so small that one of the two neighbours
of the value does.
-/

namespace PageServer.Decimal

namespace Ratio

def value (r : Ratio) : ℚ :=
  r.num / r.den

theorem den_ofBinary_pos (m : ℕ) (e : ℤ) : 0 < (ofBinary m e).den := by
  rw [ofBinary]
  split
  · exact Nat.one_pos
  · exact Nat.pow_pos two_pos

theorem value_ofBinary (m : ℕ) (e : ℤ) : (ofBinary m e).value = m * 2 ^ e := by
  rw [ofBinary]
  split
  · next he =>
    have hexp : (2 : ℚ) ^ e = 2 ^ e.toNat := by
      rw [← zpow_natCast, Int.toNat_of_nonneg he]
    rw [value, hexp]
    simp
  · next he =>
    have hexp : (2 : ℚ) ^ e = (2 ^ (-e).toNat)⁻¹ := by
      rw [← zpow_natCast, ← zpow_neg]
      congr 1
      omega
    rw [value, hexp]
    simp [div_eq_mul_inv]

theorem den_scale_pos {r : Ratio} (h : 0 < r.den) (k : ℤ) : 0 < (r.scale k).den := by
  rw [scale]
  split
  · exact Nat.mul_pos h (Nat.pow_pos (by decide))
  · exact h

theorem value_scale (r : Ratio) (k : ℤ) : (r.scale k).value = r.value / 10 ^ k := by
  rw [scale]
  split
  · next hk =>
    have hexp : (10 : ℚ) ^ k = 10 ^ k.toNat := by
      rw [← zpow_natCast, Int.toNat_of_nonneg hk]
    rw [value, value, hexp]
    push_cast [Nat.pow_eq]
    rw [div_div]
  · next hk =>
    have hexp : (10 : ℚ) ^ k = (10 ^ (-k).toNat)⁻¹ := by
      rw [← zpow_natCast, ← zpow_neg]
      congr 1
      omega
    rw [value, value, hexp]
    push_cast [Nat.pow_eq]
    rw [div_inv_eq_mul, div_mul_eq_mul_div]

theorem floor_le {r : Ratio} (h : 0 < r.den) : (r.floor : ℚ) ≤ r.value := by
  have hden : (0 : ℚ) < r.den := by exact_mod_cast h
  rw [value, le_div_iff₀ hden]
  exact_mod_cast Nat.div_mul_le_self r.num r.den

theorem lt_floor_add_one {r : Ratio} (h : 0 < r.den) : r.value < r.floor + 1 := by
  have hden : (0 : ℚ) < r.den := by exact_mod_cast h
  rw [value, div_lt_iff₀ hden]
  exact_mod_cast (Nat.div_lt_iff_lt_mul h).mp (Nat.lt_succ_self (r.num / r.den))

theorem zpow_leadingExponent_le {r : Ratio} (hnum : 0 < r.num) (hden : 0 < r.den) :
    (10 : ℚ) ^ r.leadingExponent ≤ r.value := by
  have hpos : (0 : ℚ) < r.den := by exact_mod_cast hden
  rw [leadingExponent]
  split
  · next hle =>
    have hone : 0 < r.num / r.den := Nat.div_pos hle hden
    have hlength : 0 < (digits (r.num / r.den)).length := Nat.length_toDigits_pos
    have hexp : ((digits (r.num / r.den)).length : ℤ) - 1 =
        ((digits (r.num / r.den)).length - 1 : ℕ) := by omega
    change (10 : ℚ) ^ (((digits (r.num / r.den)).length : ℤ) - 1) ≤ r.value
    rw [hexp, zpow_natCast]
    calc
      (10 : ℚ) ^ ((digits (r.num / r.den)).length - 1) ≤ (r.num / r.den : ℕ) := by
        exact_mod_cast pow_length_digits_le hone
      _ ≤ r.value := floor_le hden
  · have hlt := lt_pow_length_digits ((r.den - 1) / r.num)
    rw [Nat.div_lt_iff_lt_mul hnum] at hlt
    have hnat : r.den ≤ 10 ^ (digits ((r.den - 1) / r.num)).length * r.num := by omega
    have hcast : (r.den : ℚ) ≤ 10 ^ (digits ((r.den - 1) / r.num)).length * r.num := by
      exact_mod_cast hnat
    change (10 : ℚ) ^ (-((digits ((r.den - 1) / r.num)).length : ℤ)) ≤ r.value
    rw [value, zpow_neg, zpow_natCast, le_div_iff₀ hpos, inv_mul_le_iff₀ (by positivity)]
    exact hcast

end Ratio

/-! ### Grids -/

theorem scaled_value (n : ℕ) (e k : ℤ) :
    ((Ratio.ofBinary n (e - 2)).scale k).value = n / 4 * 2 ^ e / 10 ^ k := by
  have hexp : (2 : ℚ) ^ (e - 2) = 2 ^ e / 4 := by
    rw [zpow_sub₀ two_ne_zero]
    norm_num
  rw [Ratio.value_scale, Ratio.value_ofBinary, hexp]
  ring

theorem scaled_den_pos (n : ℕ) (e k : ℤ) : 0 < ((Ratio.ofBinary n (e - 2)).scale k).den :=
  Ratio.den_scale_pos (Ratio.den_ofBinary_pos n (e - 2)) k

namespace Shortest

theorem within_iff {i : Rounding} {e k : ℤ} {c : ℕ} :
    within i e c k = true ↔
      if i.closed then
        (i.lower : ℚ) / 4 * 2 ^ e ≤ c * 10 ^ k ∧ (c : ℚ) * 10 ^ k ≤ i.upper / 4 * 2 ^ e
      else (i.lower : ℚ) / 4 * 2 ^ e < c * 10 ^ k ∧ (c : ℚ) * 10 ^ k < i.upper / 4 * 2 ^ e := by
  have hgrid : (0 : ℚ) < 10 ^ k := by positivity
  have hlower := scaled_value i.lower e k
  have hupper := scaled_value i.upper e k
  have hlowerPos : (0 : ℚ) < ((Ratio.ofBinary i.lower (e - 2)).scale k).den := by
    exact_mod_cast scaled_den_pos i.lower e k
  have hupperPos : (0 : ℚ) < ((Ratio.ofBinary i.upper (e - 2)).scale k).den := by
    exact_mod_cast scaled_den_pos i.upper e k
  rw [Ratio.value] at hlower hupper
  rw [← div_le_iff₀ hgrid, ← le_div_iff₀ hgrid, ← div_lt_iff₀ hgrid, ← lt_div_iff₀ hgrid,
    ← hlower, ← hupper, div_le_iff₀ hlowerPos, le_div_iff₀ hupperPos, div_lt_iff₀ hlowerPos,
    lt_div_iff₀ hupperPos, within]
  cases i.closed
  · simp only [Bool.false_eq_true, if_false, Bool.and_eq_true, decide_eq_true_iff]
    norm_cast
  · simp only [if_true, Bool.and_eq_true, decide_eq_true_iff]
    norm_cast

theorem around_upper (m : ℕ) (e : ℤ) : ((Rounding.around m e).upper : ℚ) / 4 = m + 1 / 2 := by
  rw [Rounding.around]
  push_cast
  ring

theorem around_lower {m : ℕ} (hm : 0 < m) (e : ℤ) :
    (m = 2 ^ 52 ∧ -1074 < e ∧ ((Rounding.around m e).lower : ℚ) / 4 = m - 1 / 4) ∨
      (¬ (m = 2 ^ 52 ∧ -1074 < e) ∧ ((Rounding.around m e).lower : ℚ) / 4 = m - 1 / 2) := by
  simp only [Rounding.around, Nat.pow_eq]
  split
  · next hfull =>
    refine .inl ⟨hfull.1, hfull.2, ?_⟩
    push_cast [Nat.cast_sub (show 1 ≤ 4 * m by omega)]
    ring
  · next hfull =>
    refine .inr ⟨hfull, ?_⟩
    push_cast [Nat.cast_sub (show 2 ≤ 4 * m by omega)]
    ring

/-- What the interval of a double contains is rounded to the double. -/
theorem roundsTo_of_within {m c : ℕ} {e k : ℤ} (hm : 0 < m)
    (h : within (.around m e) e c k = true) : RoundsTo m e (c * 10 ^ k) := by
  have hunit : (0 : ℚ) < 2 ^ e := by positivity
  have hmono : ∀ {a b : ℚ}, a ≤ b → a * 2 ^ e ≤ b * 2 ^ e :=
    fun hab => mul_le_mul_of_nonneg_right hab hunit.le
  have hlower : (m : ℚ) - 1 / 2 ≤ (Rounding.around m e).lower / 4 ∧
      (m = 2 ^ 52 → -1074 < e → (m : ℚ) - 1 / 4 ≤ (Rounding.around m e).lower / 4) := by
    obtain ⟨-, -, hquarter⟩ | ⟨hfull, hhalf⟩ := around_lower hm e
    · exact ⟨by linarith, fun _ _ => hquarter.ge⟩
    · exact ⟨hhalf.ge, fun hm he => absurd ⟨hm, he⟩ hfull⟩
  rw [within_iff, around_upper] at h
  obtain heven | hodd : m % 2 = 0 ∨ m % 2 = 1 := by omega
  · have hclosed : (Rounding.around m e).closed = true := decide_eq_true heven
    rw [hclosed, if_pos rfl] at h
    constructor
    · exact (hmono hlower.1).trans h.1
    · exact fun hfull he => (hmono (hlower.2 hfull he)).trans h.1
    · exact h.2
    · omega
  · have hclosed : (Rounding.around m e).closed = false := decide_eq_false (by omega)
    rw [hclosed, if_neg Bool.false_ne_true] at h
    constructor
    · exact (hmono hlower.1).trans h.1.le
    · exact fun hfull he => (hmono (hlower.2 hfull he)).trans h.1.le
    · exact h.2.le
    · exact fun _ => ⟨(hmono hlower.1).trans_lt h.1, h.2⟩

theorem within_of_lt {i : Rounding} {e k : ℤ} {c : ℕ}
    (hlower : (i.lower : ℚ) / 4 * 2 ^ e < c * 10 ^ k)
    (hupper : (c : ℚ) * 10 ^ k < i.upper / 4 * 2 ^ e) : within i e c k = true := by
  rw [within_iff]
  split
  · exact ⟨hlower.le, hupper.le⟩
  · exact ⟨hlower, hupper⟩

theorem nearer_cases (tie : Tie) (value : Ratio) (n : ℕ) :
    nearer tie value n = n ∨ nearer tie value n = n + 1 := by
  unfold nearer
  dsimp only
  split
  · exact .inl rfl
  split
  · exact .inr rfl
  cases tie with
  | up => exact .inr rfl
  | toEven =>
    dsimp only
    omega

theorem within_of_onGrid? {tie : Tie} {i : Rounding} {e k : ℤ} {c : ℕ}
    (h : onGrid? tie i e k = some c) : within i e c k = true := by
  rw [onGrid?] at h
  split at h
  · next hbelow habove =>
    obtain rfl := Option.some.inj h
    obtain hn | hn := nearer_cases tie ((Ratio.ofBinary i.value (e - 2)).scale k)
      ((Ratio.ofBinary i.value (e - 2)).scale k).floor
    · rw [hn]
      exact hbelow
    · rw [hn]
      exact habove
  · next hbelow _ =>
    obtain rfl := Option.some.inj h
    exact hbelow
  · next _ habove =>
    obtain rfl := Option.some.inj h
    exact habove
  · cases h

/-- If a step of the grid is shorter than the interval of a double, one of the
neighbours of its value is in the interval. -/
theorem within_neighbour {m n : ℕ} {e k : ℤ} (hm : 0 < m) (hfine : (10 : ℚ) ^ k < 2 ^ e)
    (hfull : m = 2 ^ 52 → 2 * (10 : ℚ) ^ k < 2 ^ e) (hbelow : (n : ℚ) * 10 ^ k ≤ m * 2 ^ e)
    (habove : (m : ℚ) * 2 ^ e < (n + 1) * 10 ^ k) :
    within (.around m e) e n k = true ∨ within (.around m e) e (n + 1) k = true := by
  obtain ⟨hm52, -, hlower⟩ | ⟨-, hlower⟩ := around_lower hm e
  · -- the interval ends half a unit above the value, and a step is shorter
    have hstep := hfull hm52
    right
    apply within_of_lt
    · rw [hlower]
      push_cast
      linarith
    · rw [around_upper]
      push_cast
      linarith
  · obtain hnear | hfar := le_or_gt ((m : ℚ) * 2 ^ e - n * 10 ^ k) (10 ^ k / 2)
    · left
      apply within_of_lt
      · rw [hlower]
        linarith
      · rw [around_upper]
        linarith
    · right
      apply within_of_lt
      · rw [hlower]
        push_cast
        linarith
      · rw [around_upper]
        push_cast
        linarith

theorem onGrid?_isSome {tie : Tie} {m : ℕ} {e k : ℤ} (hm : 0 < m) (hfine : (10 : ℚ) ^ k < 2 ^ e)
    (hfull : m = 2 ^ 52 → 2 * (10 : ℚ) ^ k < 2 ^ e) :
    (onGrid? tie (.around m e) e k).isSome = true := by
  let r := (Ratio.ofBinary (Rounding.around m e).value (e - 2)).scale k
  have hgrid : (0 : ℚ) < 10 ^ k := by positivity
  have hvalue : r.value * 10 ^ k = m * 2 ^ e := by
    have hfour : ((Rounding.around m e).value : ℚ) / 4 = m := by
      rw [Rounding.around]
      push_cast
      ring
    rw [scaled_value, hfour, div_mul_cancel₀ _ hgrid.ne']
  have hbelow : (r.floor : ℚ) * 10 ^ k ≤ m * 2 ^ e := by
    rw [← hvalue]
    exact mul_le_mul_of_nonneg_right (Ratio.floor_le (scaled_den_pos _ e k)) hgrid.le
  have habove : (m : ℚ) * 2 ^ e < (r.floor + 1) * 10 ^ k := by
    rw [← hvalue]
    exact mul_lt_mul_of_pos_right (Ratio.lt_floor_add_one (scaled_den_pos _ e k)) hgrid
  rw [onGrid?]
  split
  · rfl
  · rfl
  · rfl
  · next hn hn' =>
    obtain h | h := within_neighbour hm hfine hfull hbelow habove
    · exact absurd (hn.symm.trans h) Bool.false_ne_true
    · exact absurd (hn'.symm.trans h) Bool.false_ne_true

/-- If the last grid that is tried has a decimal of the double, one of its
decimals is found. -/
theorem within_search {tie : Tie} {i : Rounding} {e : ℤ} (n : ℕ) (k : ℤ)
    (h : (onGrid? tie i e (k - n)).isSome = true) :
    within i e (search tie i e (n + 1) k).coefficient (search tie i e (n + 1) k).exponent =
      true := by
  induction n generalizing k with
  | zero =>
    rw [Nat.cast_zero, sub_zero] at h
    obtain ⟨c, hc⟩ := Option.isSome_iff_exists.mp h
    rw [search, hc]
    exact within_of_onGrid? hc
  | succ n ih =>
    cases hc : onGrid? tie i e k with
    | some c =>
      rw [search, hc]
      exact within_of_onGrid? hc
    | none =>
      have hnext : k - (n + 1 : ℕ) = k - 1 - n := by
        push_cast
        ring
      rw [hnext] at h
      rw [search, hc]
      exact ih (k - 1) h

end Shortest

theorem num_ofBinary_pos {m : ℕ} (hm : 0 < m) (e : ℤ) : 0 < (Ratio.ofBinary m e).num := by
  rw [Ratio.ofBinary]
  split
  · exact Nat.mul_pos hm (Nat.pow_pos two_pos)
  · exact hm

/-- The digits of a double are rounded to it. -/
theorem roundsTo_shortest {tie : Tie} {m : ℕ} {e : ℤ} (hc : Canonical m e) :
    RoundsTo m e ((shortest tie m e).coefficient * 10 ^ (shortest tie m e).exponent) := by
  let k := (Ratio.ofBinary m e).leadingExponent
  have hunit : (0 : ℚ) < 2 ^ e := by positivity
  have hlead : (10 : ℚ) ^ k ≤ m * 2 ^ e := by
    rw [← Ratio.value_ofBinary]
    exact Ratio.zpow_leadingExponent_le (num_ofBinary_pos hc.pos e) (Ratio.den_ofBinary_pos m e)
  have hstep : (10 : ℚ) ^ (k - (16 : ℕ)) * 10 ^ 16 = 10 ^ k := by
    rw [zpow_sub₀ (by norm_num), zpow_natCast, div_mul_cancel₀ _ (by positivity)]
  have hlt : (m : ℚ) < 2 ^ 53 := by exact_mod_cast hc.lt
  have hshort : ∀ a : ℚ, 0 < a → a * m < 10 ^ 16 → a * 10 ^ (k - (16 : ℕ)) < 2 ^ e := by
    intro a ha hsmall
    have hscaled : a * 10 ^ (k - (16 : ℕ)) * 10 ^ 16 < 2 ^ e * 10 ^ 16 := by
      calc
        a * 10 ^ (k - (16 : ℕ)) * 10 ^ 16 = a * 10 ^ k := by rw [mul_assoc, hstep]
        _ ≤ a * (m * 2 ^ e) := mul_le_mul_of_nonneg_left hlead ha.le
        _ = a * m * 2 ^ e := (mul_assoc _ _ _).symm
        _ < 10 ^ 16 * 2 ^ e := mul_lt_mul_of_pos_right hsmall hunit
        _ = 2 ^ e * 10 ^ 16 := mul_comm _ _
    exact lt_of_mul_lt_mul_right hscaled (by positivity)
  have hfine : (10 : ℚ) ^ (k - (16 : ℕ)) < 2 ^ e := by
    have hone := hshort 1 one_pos (by norm_num at hlt ⊢; linarith)
    rwa [one_mul] at hone
  have hfull : m = 2 ^ 52 → 2 * (10 : ℚ) ^ (k - (16 : ℕ)) < 2 ^ e := by
    rintro rfl
    exact hshort 2 two_pos (by norm_num)
  have hsearch : Shortest.within (.around m e) e
      (Shortest.search tie (.around m e) e 17 k).coefficient
      (Shortest.search tie (.around m e) e 17 k).exponent = true :=
    Shortest.within_search 16 k (Shortest.onGrid?_isSome hc.pos hfine hfull)
  have hfound := Shortest.roundsTo_of_within hc.pos hsearch
  rw [shortest]
  split
  · next hzero =>
    have hten : (10 : ℚ) ≠ 0 := by norm_num
    obtain ⟨c, hcoefficient⟩ := Nat.dvd_of_mod_eq_zero hzero
    rw [hcoefficient] at hfound ⊢
    rw [Nat.mul_div_cancel_left c (by decide), zpow_add_one₀ hten]
    push_cast at hfound
    rw [mul_comm ((10 : ℚ) ^ _) 10, ← mul_assoc, mul_comm (c : ℚ) 10]
    exact hfound
  · exact hfound

end PageServer.Decimal
