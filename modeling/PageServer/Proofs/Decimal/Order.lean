import PageServer.Proofs.Decimal.Finiteness

/-!
# Rounding keeps the order

Between a number and the double it is rounded to there is no other double. So a
sum of doubles is on the same side of every other double as the exact sum, if it
is not that double itself, and so is a whole number that is made a double.
-/

namespace PageServer.Decimal

open Float.Model
open Float.Model.UnpackedFloat

/-! ### Rounding a mantissa -/

section Mantissa

variable {em : ExtendedMantissa} {v : ℚ} {n : ℕ}

theorem Approximates.le_roundedMantissa (h : Approximates em v) (hn : (n : ℚ) ≤ v) :
    n ≤ em.roundedMantissa := by
  have hlt : (n : ℚ) < em.mantissa + 1 := hn.trans_lt h.floor.2
  have hle : n ≤ em.mantissa := Nat.lt_succ_iff.mp (by exact_mod_cast hlt)
  apply hle.trans
  rw [ExtendedMantissa.roundedMantissa]
  unfold Accuracy.roundToNearestEven
  split <;> omega

theorem Approximates.roundedMantissa_le (h : Approximates em v) (hn : v ≤ n) :
    em.roundedMantissa ≤ n := by
  have hfloor : em.mantissa ≤ n := by exact_mod_cast h.floor.1.trans hn
  -- one is added only if something is missing, and then there is room for it
  have hmore (hmissing : (em.mantissa : ℚ) < v) : em.mantissa + 1 ≤ n := by
    exact_mod_cast hmissing.trans_le hn
  obtain ⟨m, r, s⟩ := em
  dsimp only at hfloor hmore
  cases r <;> cases s <;> simp only [Approximates] at h <;>
    simp only [ExtendedMantissa.roundedMantissa, ExtendedMantissa.accuracy,
      Accuracy.roundToNearestEven]
  · exact hfloor
  · exact hfloor
  · have hroom := hmore (by linarith)
    omega
  · exact hmore (by linarith [h.1])

end Mantissa

/-! ### Rounding a positive number -/

/-- A mantissa and an exponent that a positive number is rounded to; the
exponent may be too large for a double. -/
structure Rounded (v : ℚ) (m : ℕ) (e : ℤ) : Prop where
  le : m ≤ 2 ^ 53
  least : -1074 ≤ e
  full : 2 ^ 52 ≤ m ∨ e = -1074
  above : ∀ {m' : ℕ} {e' : ℤ}, Canonical m' e' → m' * 2 ^ e' ≤ v → (m' * 2 ^ e' : ℚ) ≤ m * 2 ^ e
  below : ∀ {m' : ℕ} {e' : ℤ}, Canonical m' e' → v ≤ m' * 2 ^ e' → (m * 2 ^ e : ℚ) ≤ m' * 2 ^ e'

theorem natCast_mul_zpow {n : ℕ} {a e : ℤ} (h : a ≤ e) :
    ((n * 2 ^ (e - a).toNat : ℕ) : ℚ) * 2 ^ a = n * 2 ^ e := by
  have hexp : ((e - a).toNat : ℤ) + a = e := by omega
  push_cast
  rw [mul_assoc, ← zpow_natCast, ← zpow_add₀ two_ne_zero, hexp]

theorem mul_zpow_pos {m : ℕ} (h : 0 < m) (e : ℤ) : (0 : ℚ) < m * 2 ^ e := by
  have hcast : (0 : ℚ) < m := by exact_mod_cast h
  positivity

theorem Canonical.lt_zpow {m : ℕ} {e a : ℤ} (h : Canonical m e) (ha : e < a) :
    (m * 2 ^ e : ℚ) < 2 ^ (52 + a) := by
  have hm : (m : ℚ) < 2 ^ 53 := by exact_mod_cast h.lt
  calc
    (m * 2 ^ e : ℚ) < 2 ^ (53 : ℤ) * 2 ^ e := by
      gcongr
      exact_mod_cast hm
    _ = 2 ^ (53 + e) := (zpow_add₀ two_ne_zero _ _).symm
    _ ≤ 2 ^ (52 + a) := zpow_le_zpow_right₀ one_le_two (by omega)

/-- The exponent of the number: its mantissa has 53 bits, or fewer if the
exponent is the least one. -/
structure InBinade (v : ℚ) (a : ℤ) : Prop where
  least : -1074 ≤ a
  low : -1074 < a → 2 ^ (52 + a) ≤ v
  high : v < 2 ^ (53 + a)

namespace InBinade

variable {v : ℚ} {a e : ℤ} {m : ℕ} {em : ExtendedMantissa}

theorem of_target {q : ℕ} {t : ℤ} (hle : (q : ℚ) ≤ v / 2 ^ t) (hlt : v / 2 ^ t < q + 1)
    (hq : q ≠ 0) : InBinade v (target q t) := by
  refine ⟨le_max_right _ _, fun hfull => ?_, ?_⟩
  · have hexp : 52 + target q t = (q.log2 : ℤ) + t := by
      rw [target] at hfull ⊢
      omega
    rw [hexp]
    exact zpow_le_of_floor hq hle
  · apply (lt_zpow_of_floor hlt).trans_le
    apply zpow_le_zpow_right₀ one_le_two
    rw [target]
    omega

theorem full (h : InBinade v a) (hem : Approximates em (v / 2 ^ a)) :
    2 ^ 52 ≤ em.roundedMantissa ∨ a = -1074 := by
  obtain hleast | hfull := h.least.eq_or_lt
  · exact .inr hleast.symm
  · left
    apply hem.le_roundedMantissa
    rw [le_div_iff₀ (by positivity)]
    have hlow := h.low hfull
    rw [zpow_add₀ two_ne_zero] at hlow
    exact_mod_cast hlow

theorem above (h : InBinade v a) (hem : Approximates em (v / 2 ^ a)) (hc : Canonical m e)
    (hv : m * 2 ^ e ≤ v) : (m * 2 ^ e : ℚ) ≤ em.roundedMantissa * 2 ^ a := by
  by_cases hexp : a ≤ e
  · -- the double is a whole number of units
    rw [← natCast_mul_zpow hexp] at hv ⊢
    gcongr
    exact hem.le_roundedMantissa ((le_div_iff₀ (by positivity)).mpr hv)
  · -- the double is below the binade
    have hleast := hc.least
    have hfull : 2 ^ 52 ≤ em.roundedMantissa := (h.full hem).resolve_right (by omega)
    calc
      (m * 2 ^ e : ℚ) ≤ 2 ^ (52 + a) := (hc.lt_zpow (by omega)).le
      _ = 2 ^ 52 * 2 ^ a := by
        rw [zpow_add₀ two_ne_zero]
        rfl
      _ ≤ em.roundedMantissa * 2 ^ a := by
        gcongr
        exact_mod_cast hfull

theorem below (h : InBinade v a) (hem : Approximates em (v / 2 ^ a)) (hc : Canonical m e)
    (hv : v ≤ m * 2 ^ e) : (em.roundedMantissa * 2 ^ a : ℚ) ≤ m * 2 ^ e := by
  by_cases hexp : a ≤ e
  · rw [← natCast_mul_zpow hexp] at hv ⊢
    gcongr
    exact hem.roundedMantissa_le ((div_le_iff₀ (by positivity)).mpr hv)
  · have hleast := hc.least
    have hlow := h.low (by omega)
    exact absurd (hlow.trans hv) (not_le.mpr (hc.lt_zpow (by omega)))

theorem rounded (h : InBinade v a) (hem : Approximates em (v / 2 ^ a)) :
    Rounded v em.roundedMantissa a where
  le := by
    have hhigh := h.high
    apply hem.roundedMantissa_le
    rw [div_le_iff₀ (by positivity)]
    rw [zpow_add₀ two_ne_zero] at hhigh
    exact_mod_cast hhigh.le
  least := h.least
  full := h.full hem
  above := h.above hem
  below := h.below hem

end InBinade

section Positive

variable {q : ℕ} {t : ℤ} {acc : Accuracy} {v : ℚ}

theorem Rounded.halved {a : ℤ} (h : Rounded v (2 ^ 53) a) : Rounded v (2 ^ 52) (a + 1) := by
  have hvalue : ((2 ^ 52 : ℕ) : ℚ) * 2 ^ (a + 1) = (2 ^ 53 : ℕ) * 2 ^ a := by
    rw [zpow_add₀ two_ne_zero, zpow_one]
    push_cast
    ring
  have hleast := h.least
  refine ⟨by norm_num, by omega, .inl le_rfl, fun hc hv => ?_, fun hc hv => ?_⟩
  · rw [hvalue]
    exact h.above hc hv
  · rw [hvalue]
    exact h.below hc hv

theorem Rounded.target_le {m : ℕ} {e : ℤ} (h : Rounded v m e) (hlt : m < 2 ^ 53) :
    target m e ≤ e := by
  have hlog : m.log2 < 53 := by
    obtain rfl | hm := Nat.eq_zero_or_pos m
    · decide
    · exact (Nat.log2_lt hm.ne').mpr hlt
  have hleast := h.least
  rw [target]
  omega

/-- The number with these parts, zero if the mantissa is. -/
def ofParts (s : Sign) (m : ℕ) (e : ℤ) : UnpackedFloat :=
  if h : m = 0 then .zero s else .finite s m e (Nat.pos_of_ne_zero h)

theorem exists_roundWithAccuracy (s : Sign) (hq : q ≠ 0)
    (happrox : Approximates (.ofMantissaAndAccuracy q acc) (v / 2 ^ t)) (ht : t ≤ target q t) :
    ∃ m e, Rounded v m e ∧ m < 2 ^ 53 ∧
      roundWithAccuracy Format.binary64 s q t acc = ofParts s m e := by
  obtain ⟨hle, hlt⟩ := happrox.whole
  obtain ⟨em, hshift, hem⟩ := happrox.shiftToTarget ht
  have hrounded := (InBinade.of_target hle hlt hq).rounded hem
  rw [roundWithAccuracy, hshift]
  dsimp only
  generalize em.roundedMantissa = m at hrounded
  generalize target q t = e at hrounded
  obtain hlong | hshort := hrounded.le.eq_or_lt
  · subst hlong
    have hleast := hrounded.least
    have hcarry := @shiftToTarget_carry (e + 1) (by omega)
    rw [add_sub_cancel_right] at hcarry
    refine ⟨2 ^ 52, e + 1, hrounded.halved, by norm_num, ?_⟩
    rw [hcarry]
    rfl
  · refine ⟨m, e, hrounded, hshort, ?_⟩
    rw [shiftToTarget_of_target_le (hrounded.target_le hshort)]
    rfl

end Positive

/-! ### Doubles as numbers -/

def signum : Sign → ℚ
  | .negative => -1
  | .positive => 1

@[simp] theorem signum_negative : signum .negative = -1 :=
  rfl

@[simp] theorem signum_positive : signum .positive = 1 :=
  rfl

theorem signum_mul (s : Sign) (m : ℕ) : signum s * m = (s.apply m : ℤ) := by
  cases s <;> simp [Sign.apply]

theorem signum_neg (s : Sign) : signum (-s) = -signum s := by
  cases s with
  | negative => exact (neg_neg (1 : ℚ)).symm
  | positive => rfl

/-- The number that a finite double stands for. -/
def valueOfUnpacked : UnpackedFloat → ℚ
  | .finite s m e _ => signum s * (m * 2 ^ e)
  | .zero _ | .infinity _ | .notANumber => 0

def exactValue (x : Float) : ℚ :=
  valueOfUnpacked x.toModel.unpack

/-- The values of the finite doubles. -/
inductive Representable : ℚ → Prop
  | zero : Representable 0
  | finite (s : Sign) {m : ℕ} {e : ℤ} (h : Canonical m e) :
      Representable (signum s * (m * 2 ^ e))

theorem Representable.neg {b : ℚ} (h : Representable b) : Representable (-b) := by
  cases h with
  | zero =>
    rw [neg_zero]
    exact .zero
  | @finite s m e hc =>
    rw [← neg_mul, ← signum_neg]
    exact .finite _ hc

section Finite

variable {x : Float}

theorem unpack_of_isFinite (hx : x.isFinite = true) :
    (∃ s, x.toModel.unpack = .zero s) ∨ ∃ s m e h, x.toModel.unpack = .finite s m e h := by
  have hpackable := packable_of_isFinite hx
  generalize x.toModel.unpack = f at hpackable
  cases hpackable with
  | zero s => exact .inl ⟨s, rfl⟩
  | finite s m hm => exact .inr ⟨s, m, _, hm, rfl⟩

theorem unpack_of_not_isFinite (hx : ¬ x.isFinite = true) :
    (∃ s, x.toModel.unpack = .infinity s) ∨ x.toModel.unpack = .notANumber := by
  change ¬ x.toModel.unpack.isFinite = true at hx
  generalize x.toModel.unpack = f at hx
  cases f with
  | infinity s => exact .inl ⟨s, rfl⟩
  | notANumber => exact .inr rfl
  | zero s => exact absurd rfl hx
  | finite s m e hm => exact absurd rfl hx

theorem exactValue_of_zero {s : Sign} (hx : x.toModel.unpack = .zero s) : exactValue x = 0 := by
  rw [exactValue, hx]
  rfl

theorem representable_exactValue (hx : x.isFinite = true) : Representable (exactValue x) := by
  obtain ⟨s, hxu⟩ | ⟨s, m, e, hm, hxu⟩ := unpack_of_isFinite hx
  · rw [exactValue_of_zero hxu]
    exact .zero
  · rw [exactValue, hxu]
    exact .finite s (canonical_of_unpack hxu)

end Finite

/-- No double separates the two numbers. -/
structure Adjoins (w u : ℚ) : Prop where
  above : ∀ b, Representable b → b ≤ w → b ≤ u
  below : ∀ b, Representable b → w ≤ b → u ≤ b

theorem Adjoins.refl (w : ℚ) : Adjoins w w :=
  ⟨fun _ _ h => h, fun _ _ h => h⟩

theorem Adjoins.neg {w u : ℚ} (h : Adjoins w u) : Adjoins (-w) (-u) :=
  ⟨fun _ hb hle => le_neg_of_le_neg (h.below _ hb.neg (le_neg_of_le_neg hle)),
    fun _ hb hle => neg_le_of_neg_le (h.above _ hb.neg (neg_le_of_neg_le hle))⟩

/-- A double that the number is rounded to, infinite only beyond all others. -/
inductive RoundedTo (w : ℚ) (x : Float) : Prop
  | finite (hx : x.isFinite = true) (h : Adjoins w (exactValue x))
  | infinite (s : Sign) (hx : x.toModel.unpack = .infinity s)
      (h : ∀ b, Representable b → b < signum s * w)

section Sign

variable {v : ℚ} {m : ℕ} {e : ℤ}

theorem Rounded.adjoins (h : Rounded v m e) (hv : 0 < v) : Adjoins v (m * 2 ^ e) := by
  have hsign (m' : ℕ) (e' : ℤ) : signum .negative * (m' * 2 ^ e' : ℚ) ≤ 0 := by
    have hpos : (0 : ℚ) ≤ m' * 2 ^ e' := by positivity
    simpa using hpos
  constructor
  · intro _ hb hle
    cases hb with
    | zero => positivity
    | @finite s m' e' hc =>
      cases s with
      | negative => exact (hsign m' e').trans (by positivity)
      | positive =>
        rw [signum_positive, one_mul] at hle ⊢
        exact h.above hc hle
  · intro _ hb hle
    cases hb with
    | zero => exact absurd hle (not_le.mpr hv)
    | @finite s m' e' hc =>
      cases s with
      | negative => exact absurd (hle.trans (hsign m' e')) (not_le.mpr hv)
      | positive =>
        rw [signum_positive, one_mul] at hle ⊢
        exact h.below hc hle

theorem Adjoins.signum_mul {w u : ℚ} (h : Adjoins w u) (s : Sign) :
    Adjoins (signum s * w) (signum s * u) := by
  cases s with
  | negative => simpa using h.neg
  | positive => simpa using h

theorem signum_mul_self (s : Sign) (w : ℚ) : signum s * (signum s * w) = w := by
  cases s <;> simp

theorem Representable.lt_of_beyond {b : ℚ} (hb : Representable b) (hm : 2 ^ 52 ≤ m)
    (he : 971 < e) : b < m * 2 ^ e := by
  have hpos : (0 : ℚ) < m * 2 ^ e := mul_zpow_pos (by omega) e
  cases hb with
  | zero => exact hpos
  | @finite s m' e' hc =>
    calc
      signum s * (m' * 2 ^ e' : ℚ) ≤ m' * 2 ^ e' := by
        have hnonneg : (0 : ℚ) ≤ m' * 2 ^ e' := by positivity
        cases s <;> simp
        linarith
      _ < 2 ^ (52 + e) := hc.lt_zpow (hc.greatest.trans_lt he)
      _ = 2 ^ 52 * 2 ^ e := by
        rw [zpow_add₀ two_ne_zero]
        rfl
      _ ≤ m * 2 ^ e := by
        gcongr
        exact_mod_cast hm

theorem unpack_pack_beyond (s : Sign) (hm : 0 < m) (he : 971 < e) :
    (Float.Model.pack (.finite s m e hm)).unpack = .infinity s := by
  have hlarge : 2 ^ 11 ≤ (e + Format.binary64.exponentBias +
      Format.binary64.mantissaBitsWithoutImplicit).toNat + 1 := by
    rw [exponentBias_eq]
    simp only
    omega
  change UnpackedFloat.unpack Format.binary64 (UnpackedFloat.pack Format.binary64 _) = _
  rw [UnpackedFloat.pack]
  simp only
  rw [if_pos hlarge]
  cases s <;> rfl

theorem exactValue_zero (s : Sign) : exactValue (Float.ofModel (.pack (.zero s))) = 0 := by
  cases s <;> rfl

theorem roundedTo_ofParts (s : Sign) (h : Rounded v m e) (hlt : m < 2 ^ 53) (hv : 0 < v) :
    RoundedTo (signum s * v) (Float.ofModel (.pack (ofParts s m e))) := by
  have hadjoins := h.adjoins hv
  obtain rfl | hm := Nat.eq_zero_or_pos m
  · have hparts : ofParts s 0 e = .zero s := rfl
    rw [hparts]
    apply RoundedTo.finite (Packable.zero s).isFinite_pack
    rw [exactValue_zero]
    simpa using hadjoins.signum_mul s
  · have hparts : ofParts s m e = .finite s m e hm := dif_neg hm.ne'
    rw [hparts]
    obtain hfits | hbeyond := le_or_gt e 971
    · have hc : Canonical m e := ⟨hm, hlt, h.least, hfits, h.full⟩
      apply RoundedTo.finite
      · exact (Packable.finite s m hm hfits).isFinite_pack
      · change Adjoins _ (valueOfUnpacked (Float.Model.pack (.finite s m e hm)).unpack)
        rw [unpack_pack s hc]
        exact hadjoins.signum_mul s
    · have hfull : 2 ^ 52 ≤ m := h.full.resolve_right (by omega)
      apply RoundedTo.infinite s (unpack_pack_beyond s hm hbeyond)
      intro b hb
      rw [signum_mul_self]
      by_contra hle
      have hcontra := hadjoins.below b hb (not_lt.mp hle)
      exact absurd hcontra (not_le.mpr (hb.lt_of_beyond hfull hbeyond))

end Sign

/-! ### Sums -/

theorem roundedTo_roundWithAccuracy (s : Sign) {q : ℕ} {t : ℤ} {acc : Accuracy} {v : ℚ}
    (hq : q ≠ 0) (happrox : Approximates (.ofMantissaAndAccuracy q acc) (v / 2 ^ t))
    (ht : t ≤ target q t) : RoundedTo (signum s * v)
      (Float.ofModel (.pack (roundWithAccuracy Format.binary64 s q t acc))) := by
  obtain ⟨m, e, hrounded, hlt, heq⟩ := exists_roundWithAccuracy s hq happrox ht
  have hv : 0 < v := by
    have hone : (1 : ℚ) ≤ q := by exact_mod_cast Nat.one_le_iff_ne_zero.mpr hq
    have hpos : 0 < v / 2 ^ t := by linarith [happrox.whole.1]
    exact (div_pos_iff_of_pos_right (by positivity)).mp hpos
  rw [heq]
  exact roundedTo_ofParts s hrounded hlt hv

theorem roundedTo_exact (s : Sign) {q : ℕ} {t : ℤ} (hq : q ≠ 0) (ht : t ≤ target q t) :
    RoundedTo (signum s * (q * 2 ^ t))
      (Float.ofModel (.pack (roundWithAccuracy Format.binary64 s q t .exact))) := by
  apply roundedTo_roundWithAccuracy s hq _ ht
  change (q * 2 ^ t / 2 ^ t : ℚ) = q
  field_simp

theorem log2_mul_two_pow {n : ℕ} (hn : n ≠ 0) (k : ℕ) : (n * 2 ^ k).log2 = n.log2 + k := by
  induction k with
  | zero => rw [pow_zero, mul_one, add_zero]
  | succ k ih =>
    rw [pow_succ, ← mul_assoc, Nat.log2_eq_log_two, Nat.log_mul_base one_lt_two (by positivity),
      ← Nat.log2_eq_log_two, ih, add_assoc]

theorem roundedTo_round (s : Sign) {m : ℕ} (hm : m ≠ 0) (e : ℤ) :
    RoundedTo (signum s * (m * 2 ^ e))
      (Float.ofModel (.pack (UnpackedFloat.round Format.binary64 s m e))) := by
  obtain ⟨k, hk⟩ : ∃ k : ℕ, (e - target m e).toNat = k := ⟨_, rfl⟩
  have hvalue : (m * 2 ^ e : ℚ) = (m * 2 ^ k : ℕ) * 2 ^ (e - k) := by
    have hback : (e - (e - (k : ℤ))).toNat = k := by omega
    have hcast := @natCast_mul_zpow m (e - k) e (by omega)
    rw [hback] at hcast
    exact hcast.symm
  have htarget : target (m * 2 ^ k) (e - k) = target m e := by
    rw [target, target, log2_mul_two_pow hm]
    push_cast
    congr 1
    ring
  rw [UnpackedFloat.round, targetExponent_eq, decreaseExponent]
  dsimp only
  rw [hk, Nat.shiftLeft_eq, hvalue]
  apply roundedTo_exact s (by positivity)
  rw [htarget]
  omega

theorem roundedTo_normalize (k e : ℤ) (z : Sign) : RoundedTo (k * 2 ^ e)
    (Float.ofModel (.pack (UnpackedFloat.normalize Format.binary64 k e z))) := by
  rw [UnpackedFloat.normalize]
  cases hcompare : compare k 0 with
  | lt =>
    have hneg : k < 0 := Int.compare_eq_lt.mp hcompare
    have hround := roundedTo_round .negative (by omega : (-k).toNat ≠ 0) e
    have happly : Sign.negative.apply (-k).toNat = k := by
      change -((-k).toNat : ℤ) = k
      omega
    rwa [← mul_assoc, signum_mul, happly] at hround
  | eq =>
    obtain rfl : k = 0 := Int.compare_eq_eq.mp hcompare
    apply RoundedTo.finite (Packable.zero z).isFinite_pack
    rw [exactValue_zero, Int.cast_zero, zero_mul]
    exact .refl 0
  | gt =>
    have hpos : 0 < k := Int.compare_eq_gt.mp hcompare
    have hround := roundedTo_round .positive (by omega : k.toNat ≠ 0) e
    have happly : Sign.positive.apply k.toNat = k := by
      change (k.toNat : ℤ) = k
      omega
    rwa [← mul_assoc, signum_mul, happly] at hround

section Sum

variable {x y : Float}

theorem RoundedTo.refl (hx : x.isFinite = true) : RoundedTo (exactValue x) x :=
  .finite hx (.refl _)

theorem decreaseExponent_value (s : Sign) (m : ℕ) {e a : ℤ} (ha : a ≤ e) :
    ((s.apply (decreaseExponent m e a).1 : ℤ) : ℚ) * 2 ^ a = signum s * (m * 2 ^ e) := by
  rw [decreaseExponent, Nat.shiftLeft_eq, ← signum_mul, mul_assoc, natCast_mul_zpow ha]

theorem add_eq (x y : Float) : x + y = Float.ofModel
    (.pack (UnpackedFloat.add Format.binary64 x.toModel.unpack y.toModel.unpack)) :=
  rfl

theorem zero_add_zero {s₁ s₂ : Sign} (hx : x.toModel.unpack = .zero s₁)
    (hy : y.toModel.unpack = .zero s₂) : ∃ s, x + y = Float.ofModel (.pack (.zero s)) := by
  rw [add_eq, hx, hy]
  cases s₁ <;> cases s₂ <;> exact ⟨_, rfl⟩

theorem zero_add_of_finite {s₁ s₂ : Sign} {m : ℕ} {e : ℤ} {h : 0 < m}
    (hx : x.toModel.unpack = .zero s₁) (hy : y.toModel.unpack = .finite s₂ m e h) : x + y = y := by
  have hadd : UnpackedFloat.add Format.binary64 (.zero s₁) (.finite s₂ m e h) =
      .finite s₂ m e h := rfl
  rw [add_eq, hx, hy, hadd, ← hy, pack_unpack_toModel]

theorem add_zero_of_finite {s₁ s₂ : Sign} {m : ℕ} {e : ℤ} {h : 0 < m}
    (hx : x.toModel.unpack = .finite s₁ m e h) (hy : y.toModel.unpack = .zero s₂) : x + y = x := by
  have hadd : UnpackedFloat.add Format.binary64 (.finite s₁ m e h) (.zero s₂) =
      .finite s₁ m e h := rfl
  rw [add_eq, hx, hy, hadd, ← hx, pack_unpack_toModel]

theorem roundedTo_add_of_finite {s₁ s₂ : Sign} {m₁ m₂ : ℕ} {e₁ e₂ : ℤ} {h₁ : 0 < m₁}
    {h₂ : 0 < m₂} (hx : x.toModel.unpack = .finite s₁ m₁ e₁ h₁)
    (hy : y.toModel.unpack = .finite s₂ m₂ e₂ h₂) :
    RoundedTo (exactValue x + exactValue y) (x + y) := by
  have hsum : exactValue x + exactValue y =
      ((s₁.apply (decreaseExponent m₁ e₁ (min e₁ e₂)).1 +
        s₂.apply (decreaseExponent m₂ e₂ (min e₁ e₂)).1 : ℤ) : ℚ) * 2 ^ min e₁ e₂ := by
    rw [Int.cast_add, add_mul, decreaseExponent_value s₁ m₁ (min_le_left e₁ e₂),
      decreaseExponent_value s₂ m₂ (min_le_right e₁ e₂), exactValue, exactValue, hx, hy]
    rfl
  rw [add_eq, hsum, hx, hy]
  exact roundedTo_normalize _ _ _

/-- A sum of doubles is rounded from the exact sum. -/
theorem roundedTo_add (hx : x.isFinite = true) (hy : y.isFinite = true) :
    RoundedTo (exactValue x + exactValue y) (x + y) := by
  obtain ⟨s₁, hx₁⟩ | ⟨s₁, m₁, e₁, h₁, hx₁⟩ := unpack_of_isFinite hx <;>
    obtain ⟨s₂, hy₂⟩ | ⟨s₂, m₂, e₂, h₂, hy₂⟩ := unpack_of_isFinite hy
  · obtain ⟨s, hsum⟩ := zero_add_zero hx₁ hy₂
    rw [exactValue_of_zero hx₁, exactValue_of_zero hy₂, zero_add, hsum, ← exactValue_zero s]
    exact .refl (Packable.zero s).isFinite_pack
  · rw [exactValue_of_zero hx₁, zero_add, zero_add_of_finite hx₁ hy₂]
    exact .refl hy
  · rw [exactValue_of_zero hy₂, add_zero, add_zero_of_finite hx₁ hy₂]
    exact .refl hx
  · exact roundedTo_add_of_finite hx₁ hy₂

end Sum

/-! ### Whole numbers -/

theorem Canonical.full_of_le {m : ℕ} {e : ℤ} (h : Canonical m e) (hle : 1 ≤ (m * 2 ^ e : ℚ)) :
    2 ^ 52 ≤ m := by
  apply h.full.resolve_right
  intro hleast
  have hlt := h.lt_zpow (a := -52) (by omega)
  norm_num at hlt
  linarith

/-- A short number is multiplied by one, exactly. -/
theorem roundedTo_mul_one {n : ℕ} (hn : n ≠ 0) (hlt : n < 2 ^ 53) :
    RoundedTo n (n.toUInt64.toFloat * Float.exactlyRepresentablePowersOfTen[0]) := by
  obtain ⟨m₁, e₁, h₁, hx₁, hvalue₁⟩ := unpack_toFloat (Nat.pos_of_ne_zero hn) hlt
  obtain ⟨m₂, e₂, h₂, hx₂, hvalue₂⟩ := @unpack_powerOfTen 0 (by decide)
  have hvalue : (n : ℚ) = signum .positive * ((m₁ * m₂ : ℕ) * 2 ^ (e₁ + e₂)) := by
    rw [zpow_add₀ two_ne_zero, ← hvalue₁, signum_positive, one_mul, Nat.cast_mul,
      mul_mul_mul_comm, hvalue₂, pow_zero, mul_one]
  have hone : (1 : ℚ) ≤ m₁ * 2 ^ e₁ := by
    rw [hvalue₁]
    exact_mod_cast Nat.one_le_iff_ne_zero.mpr hn
  have hbits : 52 ≤ (m₁ * m₂).log2 := by
    apply (Nat.le_log2 (by positivity)).mpr
    calc
      2 ^ 52 ≤ m₁ := (canonical_of_unpack hx₁).full_of_le hone
      _ ≤ m₁ * m₂ := Nat.le_mul_of_pos_right _ h₂
  change RoundedTo n (Float.ofModel (.pack (UnpackedFloat.mul Format.binary64
    n.toUInt64.toFloat.toModel.unpack Float.exactlyRepresentablePowersOfTen[0].toModel.unpack)))
  rw [hx₁, hx₂, hvalue]
  apply roundedTo_exact .positive (by positivity)
  rw [target]
  omega

theorem roundedTo_ofScientific {n : ℕ} (hn : n ≠ 0) :
    RoundedTo n (Float.ofModel (.pack (UnpackedFloat.ofScientific Format.binary64 n 0))) := by
  have hbits : Format.binary64.exponentBits = 11 := rfl
  have hmant : Format.binary64.mantissaBits = 53 := rfl
  have hshift : n <<< Format.binary64.mantissaBits * 10 ^ Int.toNat 0 = n * 2 ^ 53 := by
    rw [hmant, Nat.shiftLeft_eq, Int.toNat_zero, pow_zero, mul_one]
  have hvalue : (n : ℚ) = signum .positive *
      ((n <<< Format.binary64.mantissaBits * 10 ^ Int.toNat 0 : ℕ) *
        2 ^ (-(Format.binary64.mantissaBits : ℤ) + 0)) := by
    rw [hshift, hmant, add_zero, mul_two_pow_value n 53, signum_positive, one_mul]
  rw [UnpackedFloat.ofScientific, dif_neg hn, hbits, if_neg (by decide), if_neg (by omega),
    if_pos le_rfl, hvalue]
  apply roundedTo_exact .positive
  · rw [hshift]
    positivity
  · rw [hshift, hmant, target, log2_mul_two_pow hn]
    push_cast
    omega

theorem roundedTo_ofNat {n : ℕ} (hn : n ≠ 0) : RoundedTo n (Float.ofNat n) := by
  change RoundedTo n (Float.ofScientific n false 0)
  rw [Float.ofScientific]
  split
  · next hshort => exact roundedTo_mul_one hn hshort.1
  · exact roundedTo_ofScientific hn

theorem representable_one : Representable 1 := by
  have hc : Canonical (2 ^ 52) (-52) := ⟨by decide, by decide, by decide, by decide, .inl le_rfl⟩
  have hvalue : (1 : ℚ) = signum .positive * ((2 ^ 52 : ℕ) * 2 ^ (-52 : ℤ)) := by
    norm_num
  rw [hvalue]
  exact .finite .positive hc

theorem one_le_exactValue_ofNat {n : ℕ} (hn : n ≠ 0) (hle : n ≤ 2 ^ 63) :
    1 ≤ exactValue (Float.ofNat n) := by
  have hone : (1 : ℚ) ≤ n := by exact_mod_cast Nat.one_le_iff_ne_zero.mpr hn
  cases roundedTo_ofNat hn with
  | finite _ h => exact h.above 1 representable_one hone
  | infinite s hx _ =>
    have hfinite : (Float.ofNat n).toModel.unpack.isFinite = true := isFinite_ofNat hle
    rw [hx] at hfinite
    cases hfinite

theorem exactValue_neg {x : Float} (hx : x.isFinite = true) : exactValue (-x) = -exactValue x := by
  change valueOfUnpacked (Float.Model.pack x.toModel.unpack.neg).unpack = _
  obtain ⟨s, hxu⟩ | ⟨s, m, e, hm, hxu⟩ := unpack_of_isFinite hx
  · rw [exactValue_of_zero hxu, hxu]
    exact (exactValue_zero _).trans neg_zero.symm
  · rw [exactValue, hxu]
    change valueOfUnpacked (Float.Model.pack (.finite (-s) m e hm)).unpack = _
    rw [unpack_pack (-s) (canonical_of_unpack hxu), valueOfUnpacked, valueOfUnpacked, signum_neg,
      neg_mul]

/-- A whole number that is made a double keeps its sign. -/
theorem signum_mul_exactValue_ofInt {v : Int64} {d : Sign} (h : 0 < d.apply v.toInt) :
    0 < signum d * exactValue (Float.ofInt v.toInt) := by
  have hlow := v.le_toInt
  have hhigh := v.toInt_lt
  generalize v.toInt = k at h hlow hhigh
  cases k with
  | ofNat n =>
    rw [Int.ofNat_eq_natCast] at h hhigh
    cases d with
    | negative =>
      simp only [Sign.apply] at h
      omega
    | positive =>
      simp only [Sign.apply] at h
      have hone := one_le_exactValue_ofNat (by omega : n ≠ 0) (by omega)
      rw [signum_positive, one_mul]
      exact zero_lt_one.trans_le hone
  | negSucc n =>
    cases d with
    | negative =>
      have hone := one_le_exactValue_ofNat (Nat.succ_ne_zero n) (by omega)
      have hneg : exactValue (Float.ofInt (Int.negSucc n)) = -exactValue (Float.ofNat n.succ) :=
        exactValue_neg (isFinite_ofNat (by omega))
      rw [hneg]
      rw [signum_negative, neg_one_mul, neg_neg]
      exact zero_lt_one.trans_le hone
    | positive =>
      simp only [Sign.apply] at h
      omega

end PageServer.Decimal
