import PageServer.Proofs.Decimal.Order

/-!
# Steps that are absorbed

Adding the same double over and over leads away from where it began, and never
back. There are finitely many doubles, so in the end the sum is infinite or the
step is absorbed: it is too small to lead to the next double.
-/

namespace PageServer.Decimal

open Float.Model
open Float.Model.UnpackedFloat

/-! ### One step -/

section Step

variable {x y s : Float}

/-- A step leads in its direction, if not to the same double again, or beyond all
doubles. -/
theorem add_leads {d : Sign} (hx : x.isFinite = true) (hs : s.isFinite = true)
    (hdir : 0 < signum d * exactValue s) :
    ((x + s).isFinite = true ∧ signum d * exactValue x ≤ signum d * exactValue (x + s)) ∨
      (x + s).toModel.unpack = .infinity d := by
  have hrep := representable_exactValue hx
  cases roundedTo_add hx hs with
  | finite hsum hadjoins =>
    refine .inl ⟨hsum, ?_⟩
    cases d with
    | negative =>
      simp only [signum_negative, neg_one_mul] at hdir ⊢
      linarith [hadjoins.below _ hrep (by linarith)]
    | positive =>
      simp only [signum_positive, one_mul] at hdir ⊢
      exact hadjoins.above _ hrep (by linarith)
  | infinite d' hsum hbeyond =>
    right
    have hahead := hbeyond _ hrep
    have hbehind := hbeyond _ hrep.neg
    rw [hsum]
    cases d <;> cases d' <;>
      simp only [signum_negative, signum_positive, neg_one_mul, one_mul] at hdir hahead hbehind ⊢
    · linarith
    · linarith

theorem add_infinite {d : Sign} (hx : x.isFinite = true) (hs : s.toModel.unpack = .infinity d) :
    (x + s).toModel.unpack = .infinity d := by
  have hadd : UnpackedFloat.add Format.binary64 x.toModel.unpack (.infinity d) = .infinity d := by
    obtain ⟨d', hxu⟩ | ⟨d', m, e, hm, hxu⟩ := unpack_of_isFinite hx
    · rw [hxu]
      rfl
    · rw [hxu]
      rfl
  rw [add_eq, hs, hadd]
  cases d <;> rfl

theorem add_notANumber (hx : x.isFinite = true) (hs : s.toModel.unpack = .notANumber) :
    (x + s).toModel.unpack = .notANumber := by
  have hadd : UnpackedFloat.add Format.binary64 x.toModel.unpack .notANumber = .notANumber := by
    obtain ⟨d', hxu⟩ | ⟨d', m, e, hm, hxu⟩ := unpack_of_isFinite hx
    · rw [hxu]
      rfl
    · rw [hxu]
      rfl
  rw [add_eq, hs, hadd]
  rfl

theorem Canonical.unique {m m' : ℕ} {e e' : ℤ} (h : Canonical m e) (h' : Canonical m' e')
    (hvalue : (m * 2 ^ e : ℚ) = m' * 2 ^ e') : m = m' ∧ e = e' := by
  have happrox : Approximates (.ofMantissaAndAccuracy m .exact) ((m * 2 ^ e : ℚ) / 2 ^ e) := by
    change (m * 2 ^ e / 2 ^ e : ℚ) = m
    field_simp
  have hself' : RoundsTo m' e' (m * 2 ^ e) := hvalue ▸ roundsTo_self
  have hround := roundWithAccuracy_eq (s := .positive) h roundsTo_self happrox h.target_eq.ge
  have hround' := roundWithAccuracy_eq (s := .positive) h' hself' happrox h.target_eq.ge
  rw [hround] at hround'
  injection hround' with _ hm he
  exact ⟨hm, he⟩

theorem finite_of_exactValue_ne (hx : exactValue x ≠ 0) :
    ∃ d m e h, x.toModel.unpack = .finite d m e h := by
  rw [exactValue] at hx
  cases hxu : x.toModel.unpack with
  | finite d m e h => exact ⟨d, m, e, h, rfl⟩
  | zero d =>
    rw [hxu] at hx
    exact absurd rfl hx
  | infinity d =>
    rw [hxu] at hx
    exact absurd rfl hx
  | notANumber =>
    rw [hxu] at hx
    exact absurd rfl hx

theorem exactValue_ne_of_finite {d : Sign} {m : ℕ} {e : ℤ} {h : 0 < m}
    (hx : x.toModel.unpack = .finite d m e h) : exactValue x ≠ 0 := by
  have hpos := mul_zpow_pos h e
  rw [exactValue, hx]
  cases d with
  | negative => simpa [valueOfUnpacked] using hpos.ne'
  | positive => simpa [valueOfUnpacked] using hpos.ne'

/-- But for the two zeros, doubles are told apart by what they stand for. -/
theorem eq_of_exactValue_eq (hne : exactValue x ≠ 0) (h : exactValue x = exactValue y) :
    x = y := by
  obtain ⟨d, m, e, hm, hx⟩ := finite_of_exactValue_ne hne
  obtain ⟨d', m', e', hm', hy⟩ := finite_of_exactValue_ne (h ▸ hne)
  have hpos := mul_zpow_pos hm e
  have hpos' := mul_zpow_pos hm' e'
  rw [exactValue, exactValue, hx, hy] at h
  have hparts : d = d' ∧ (m * 2 ^ e : ℚ) = m' * 2 ^ e' := by
    cases d <;> cases d' <;>
      simp only [valueOfUnpacked, signum_negative, signum_positive, neg_one_mul, one_mul,
        neg_inj] at h
    · exact ⟨rfl, h⟩
    · linarith
    · linarith
    · exact ⟨rfl, h⟩
  obtain ⟨rfl, hvalue⟩ := hparts
  obtain ⟨rfl, rfl⟩ := (canonical_of_unpack hx).unique (canonical_of_unpack hy) hvalue
  rw [← pack_unpack_toModel x, hx, ← hy, pack_unpack_toModel]

theorem add_eq_self (hx : x.isFinite = true) (hs : exactValue s ≠ 0)
    (h : exactValue (x + s) = exactValue x) : x + s = x := by
  by_cases hzero : exactValue x = 0
  · -- the sum with a zero is the step itself, which is not zero
    obtain ⟨d, m, e, hm, hsu⟩ := finite_of_exactValue_ne hs
    obtain ⟨d', hxu⟩ | ⟨d', m', e', hm', hxu⟩ := unpack_of_isFinite hx
    · rw [zero_add_of_finite hxu hsu, hzero] at h
      exact absurd h hs
    · exact absurd hzero (exactValue_ne_of_finite hxu)
  · exact (eq_of_exactValue_eq hzero h.symm).symm

end Step

/-! ### Step after step -/

instance finite_float : Finite Float :=
  Finite.of_injective Float.toBits fun x y h => by
    rw [← Float.ofBits_toBits x, h, Float.ofBits_toBits]

section Steps

variable {x s : Float} {d : Sign}

theorem monotone_iterate (hs : s.isFinite = true) (hdir : 0 < signum d * exactValue s)
    (hfinite : ∀ k, ((· + s)^[k] x).isFinite = true) :
    Monotone fun k => signum d * exactValue ((· + s)^[k] x) := by
  apply monotone_nat_of_le_succ
  intro k
  rw [Function.iterate_succ_apply']
  obtain ⟨-, hle⟩ | hinfinite := add_leads (hfinite k) hs hdir
  · exact hle
  · have hnext : ((· + s)^[k + 1] x).toModel.unpack.isFinite = true := hfinite (k + 1)
    rw [Function.iterate_succ_apply', hinfinite] at hnext
    cases hnext

/-- A sum that stays finite comes to a double that absorbs the step. -/
theorem exists_absorbed (hs : s.isFinite = true) (hdir : 0 < signum d * exactValue s)
    (hfinite : ∀ k, ((· + s)^[k] x).isFinite = true) :
    ∃ k, (· + s)^[k] x + s = (· + s)^[k] x := by
  have hmono := monotone_iterate hs hdir hfinite
  have hne : exactValue s ≠ 0 := by
    intro hzero
    rw [hzero, mul_zero] at hdir
    exact lt_irrefl _ hdir
  obtain ⟨i, j, hij, heq⟩ := Finite.exists_ne_map_eq_of_infinite fun k => (· + s)^[k] x
  wlog hlt : i < j generalizing i j
  · exact this j i hij.symm heq.symm (by omega)
  -- the sum comes back to a double, so it has not moved in between
  have hback : signum d * exactValue ((· + s)^[i + 1] x) =
      signum d * exactValue ((· + s)^[i] x) := by
    apply le_antisymm
    · calc
        signum d * exactValue ((· + s)^[i + 1] x) ≤ signum d * exactValue ((· + s)^[j] x) :=
          hmono (Nat.succ_le_of_lt hlt)
        _ = signum d * exactValue ((· + s)^[i] x) := by rw [← heq]
    · exact hmono (Nat.le_succ i)
  have hvalue : exactValue ((· + s)^[i] x + s) = exactValue ((· + s)^[i] x) := by
    rw [Function.iterate_succ_apply'] at hback
    rw [← signum_mul_self d (exactValue ((· + s)^[i] x + s)), hback, signum_mul_self]
  exact ⟨i, add_eq_self (hfinite i) hne hvalue⟩

end Steps

end PageServer.Decimal
