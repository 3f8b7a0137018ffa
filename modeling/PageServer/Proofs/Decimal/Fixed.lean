import PageServer.Proofs.Decimal.Order
import PageServer.Proofs.Decimal.ReadBack

/-!
# Fixed notation

Fixed notation writes a whole number of units, the unit being the last place that
was asked for: the number of units nearest to the double, and of two such the even
one.
-/

namespace PageServer.Decimal

/-! ### Rounding to whole numbers -/

/-- The whole number is nearest to the other number; halfway between two it is the
even one. -/
structure IsRounding (n : ℤ) (v : ℚ) : Prop where
  near : |v - n| ≤ 1 / 2
  even : |v - n| = 1 / 2 → Even n

theorem IsRounding.neg {n : ℤ} {v : ℚ} (h : IsRounding n v) : IsRounding (-n) (-v) := by
  have hdistance : |-v - (-n : ℤ)| = |v - n| := by
    rw [← abs_neg]
    push_cast
    ring_nf
  exact ⟨hdistance ▸ h.near, fun htie => (h.even (hdistance ▸ htie)).neg⟩

/-- Whole numbers are not changed. -/
theorem IsRounding.eq_of_intCast {n i : ℤ} (h : IsRounding n (i : ℚ)) : n = i := by
  have hlt : |((i - n : ℤ) : ℚ)| < 1 := by
    push_cast
    linarith [h.near]
  have hzero : i - n = 0 := Int.abs_lt_one_iff.mp (by exact_mod_cast hlt)
  omega

namespace IsRounding

variable {q : ℕ} {part : ℚ}

theorem down (h : 0 ≤ part) (hlow : part < 1 / 2) : IsRounding q (q + part) := by
  have hdistance : |(q + part : ℚ) - (q : ℤ)| = part := by
    rw [Int.cast_natCast, add_sub_cancel_left, abs_of_nonneg h]
  refine ⟨hdistance.trans_le hlow.le, fun htie => ?_⟩
  rw [hdistance] at htie
  exact absurd htie hlow.ne

theorem up (h : part < 1) (hhigh : 1 / 2 < part) : IsRounding (q + 1 : ℕ) (q + part) := by
  have hdistance : |(q + part : ℚ) - ((q + 1 : ℕ) : ℤ)| = 1 - part := by
    push_cast
    rw [add_sub_add_left_eq_sub, abs_of_neg (by linarith), neg_sub]
  constructor
  · rw [hdistance]
    linarith
  · intro htie
    rw [hdistance] at htie
    linarith

theorem half : IsRounding (q + q % 2 : ℕ) (q + 1 / 2) := by
  have heven : Even (q + q % 2) := by
    rw [Nat.even_iff]
    omega
  refine ⟨?_, fun _ => by exact_mod_cast heven⟩
  rw [Int.cast_natCast, Nat.cast_add, add_sub_add_left_eq_sub]
  rcases Nat.mod_two_eq_zero_or_one q with hq | hq <;> norm_num [hq]

end IsRounding

theorem Ratio.isRounding_nearestEven {r : Ratio} (h : 0 < r.den) :
    IsRounding r.nearestEven r.value := by
  have hden : (0 : ℚ) < r.den := by exact_mod_cast h
  let part : ℚ := (r.num % r.den : ℕ) / r.den
  have hvalue : r.value = (r.num / r.den : ℕ) + part := by
    have hsplit : (r.num : ℚ) = r.den * (r.num / r.den : ℕ) + (r.num % r.den : ℕ) := by
      exact_mod_cast (Nat.div_add_mod r.num r.den).symm
    rw [value, hsplit, add_div, mul_div_cancel_left₀ _ hden.ne']
  have hpart : 0 ≤ part := by positivity
  have hless : part < 1 := (div_lt_one hden).mpr (by exact_mod_cast Nat.mod_lt r.num h)
  have htwice : 2 * part = (2 * (r.num % r.den) : ℕ) / r.den := by
    push_cast
    ring
  rw [nearestEven, hvalue]
  split
  · next hlow =>
    apply IsRounding.down hpart
    have hbelow : 2 * part < 1 := by
      rw [htwice, div_lt_one hden]
      exact_mod_cast hlow
    linarith
  split
  · next hhigh =>
    apply IsRounding.up hless
    have habove : 1 < 2 * part := by
      rw [htwice, one_lt_div hden]
      exact_mod_cast hhigh
    linarith
  · next hlow hhigh =>
    have hequal : 2 * (r.num % r.den) = r.den := by omega
    have hhalf : part = 1 / 2 := by
      rw [hequal, div_self hden.ne'] at htwice
      linarith
    rw [hhalf]
    exact IsRounding.half

/-! ### Digits around the point -/

/-- The first digit of a number is a zero only if the number is zero. -/
theorem head?_digits {n : ℕ} (hn : n ≠ 0) : (digits n).head? ≠ some '0' := by
  induction n using Nat.strong_induction_on with
  | h n ih =>
    by_cases hsmall : n < 10
    · have hdigit : ∀ d < 10, d ≠ 0 → d.digitChar ≠ '0' := by decide
      rw [digits, Nat.toDigits_of_lt_base hsmall, List.head?_cons]
      exact fun h => hdigit n hsmall hn (Option.some.inj h)
    · have hrest : digits n = digits (n / 10) ++ [(n % 10).digitChar] :=
        Nat.toDigits_of_base_le (by decide) (not_lt.mp hsmall)
      rw [hrest, List.head?_append_of_ne_nil _ (digits_ne_nil _)]
      exact ih (n / 10) (by omega) (by omega)

/-- The digits before and after the point of a number of units, the unit having so
many places. -/
structure IsFixed (n k : ℕ) (whole places : List Char) : Prop where
  isDigit : ∀ c ∈ whole ++ places, c.isDigit = true
  ofDigits : ofDigits (whole ++ places) = n
  length : places.length = k
  ne_nil : whole ≠ []
  leading : 1 < whole.length → whole.head? ≠ some '0'

theorem isFixed_fixedDigits (n k : ℕ) :
    IsFixed n k (fixedDigits n k).1 (fixedDigits n k).2 := by
  let pad := k + 1 - (digits n).length
  let ds := zeros pad ++ digits n
  have hsplit : (fixedDigits n k).1 ++ (fixedDigits n k).2 = ds := List.take_append_drop _ ds
  have hsize : ds.length = max (k + 1) (digits n).length := by
    rw [List.length_append, zeros, List.length_replicate]
    omega
  have hwhole : (fixedDigits n k).1.length = ds.length - k := by
    change (ds.take (ds.length - k)).length = _
    rw [List.length_take]
    omega
  constructor
  · rw [hsplit]
    exact List.forall_mem_append.mpr
      ⟨fun _ => isDigit_of_mem_zeros, fun _ => isDigit_of_mem_digits⟩
  · rw [hsplit, ofDigits_zeros_append, ofDigits_digits]
  · change (ds.drop (ds.length - k)).length = k
    rw [List.length_drop]
    omega
  · rw [← List.length_pos_iff]
    omega
  · intro hlong
    -- more than one digit before the point leaves no room for zeros in front
    have hpad : pad = 0 := by omega
    have hds : ds = digits n := by
      change zeros pad ++ digits n = digits n
      rw [hpad]
      rfl
    have hn : n ≠ 0 := by
      rintro rfl
      have hone : (digits 0).length = 1 := by decide
      rw [hds, hone] at hwhole
      omega
    have hhead : (fixedDigits n k).1.head? = ds.head? := by
      rw [← hsplit, List.head?_append_of_ne_nil]
      rw [← List.length_pos_iff]
      omega
    rw [hhead, hds]
    exact head?_digits hn

theorem digits_mul_pow {n : ℕ} (hn : n ≠ 0) (k : ℕ) :
    digits (n * 10 ^ k) = digits n ++ zeros k := by
  induction k with
  | zero => simp [zeros]
  | succ k ih =>
    have hpos : 0 < n * 10 ^ k := by positivity
    have hnext : n * 10 ^ (k + 1) = 10 * (n * 10 ^ k) := by ring
    have hlast : (10 * (n * 10 ^ k) % 10).digitChar = '0' := by
      rw [Nat.mul_mod_right]
      rfl
    rw [hnext, digits, Nat.toDigits_of_base_le (by decide) (by omega), hlast,
      Nat.mul_div_cancel_left _ (by decide), ← digits, ih, List.append_assoc, zeros, zeros,
      ← List.replicate_succ']

/-- A whole number has its own digits before the point and zeros after it. -/
theorem fixedDigits_mul_pow (n k : ℕ) : fixedDigits (n * 10 ^ k) k = (digits n, zeros k) := by
  have hpadded : zeros (k + 1 - (digits (n * 10 ^ k)).length) ++ digits (n * 10 ^ k) =
      digits n ++ zeros k := by
    by_cases hn : n = 0
    · subst hn
      have hone : (digits 0).length = 1 := by decide
      have hdigits : digits 0 = zeros 1 := by decide
      rw [zero_mul, hone, Nat.add_sub_cancel, hdigits, zeros, zeros,
        List.replicate_append_replicate, List.replicate_append_replicate, add_comm]
    · have hlong : 0 < (digits n).length := List.length_pos_iff.mpr (digits_ne_nil n)
      have hnone : k + 1 - ((digits n).length + k) = 0 := by omega
      rw [digits_mul_pow hn, List.length_append, zeros, zeros, List.length_replicate, hnone]
      rfl
  have hlength : (digits n ++ zeros k).length - k = (digits n).length := by
    rw [List.length_append, zeros, List.length_replicate, Nat.add_sub_cancel]
  rw [fixedDigits, hpadded, hlength, List.take_left, List.drop_left]

/-- Fixed notation of a finite double is that of the number of units nearest to its
absolute value. -/
theorem exists_fixed_eq {x : Float} (hx : x.isFinite = true) (k : ℕ) :
    ∃ n : ℕ, fixed x k = fixedDigits n k ∧ IsRounding n (|exactValue x| * 10 ^ k) := by
  obtain ⟨negative, m, e, hparts, hvalue⟩ : ∃ negative m e,
      Binary64.ofFloat x = .finite negative m e ∧ |exactValue x| = m * 2 ^ e := by
    rw [Binary64.ofFloat_eq]
    obtain ⟨s, hxu⟩ | ⟨s, m, e, hm, hxu⟩ := unpack_of_isFinite hx
    · rw [exactValue_of_zero hxu, hxu]
      exact ⟨_, _, _, rfl, by simp⟩
    · rw [exactValue, hxu]
      refine ⟨_, _, _, rfl, ?_⟩
      rw [valueOfUnpacked, abs_mul, abs_of_pos (mul_zpow_pos hm e)]
      cases s <;> simp
  let r := (Ratio.ofBinary m e).scale (-k)
  have hden : 0 < r.den := Ratio.den_scale_pos (Ratio.den_ofBinary_pos m e) _
  have hscaled : r.value = |exactValue x| * 10 ^ k := by
    rw [Ratio.value_scale, Ratio.value_ofBinary, hvalue, zpow_neg, zpow_natCast, div_inv_eq_mul]
  have hfixed : fixed x k = fixedDigits r.nearestEven k := by
    rw [fixed, hparts]
  refine ⟨r.nearestEven, hfixed, ?_⟩
  rw [← hscaled]
  exact Ratio.isRounding_nearestEven hden

theorem fixed_of_isFinite {x : Float} (hx : x.isFinite = true) (k : ℕ) :
    ∃ n : ℕ, IsFixed n k (fixed x k).1 (fixed x k).2 ∧
      IsRounding n (|exactValue x| * 10 ^ k) := by
  obtain ⟨n, hfixed, hrounding⟩ := exists_fixed_eq hx k
  refine ⟨n, ?_, hrounding⟩
  rw [hfixed]
  exact isFixed_fixedDigits n k

end PageServer.Decimal
