import PageServer.Proofs.Decimal.Absorption
import PageServer.Proofs.Template.FiniteValues

/-!
# Steps of counters

A step that is not zero leads a counter in one direction, up or down. A counter
that is led beyond all doubles is out of the range in that direction, so between
finite bounds a counter stays finite.
-/

namespace PageServer.Template

open Decimal (signum exactValue)
open Float.Model.UnpackedFloat (Sign)

namespace Number

variable {n last step : Number}

theorem isFinite_toFloat (h : n.IsFinite) : n.toFloat.isFinite = true := by
  cases n with
  | int v => exact Decimal.isFinite_ofInt v
  | double x => exact h

theorem unpack_zero : (0 : Float).toModel.unpack = .zero .positive := by
  have hzero : (0 : Float) = Float.ofModel (.pack (.zero .positive)) := by decide +kernel
  rw [hzero]
  rfl

theorem isNegative_double (x : Float) :
    (double x).isNegative = x.toModel.unpack.lt (0 : Float).toModel.unpack := by
  have hlt : (x < 0) ↔ x.toModel.unpack.lt (0 : Float).toModel.unpack = true :=
    decide_eq_true_iff
  rw [isNegative, Bool.eq_iff_iff, decide_eq_true_iff, hlt]

/-- The direction in which a step leads. -/
def heading (step : Number) : Sign :=
  if step.isNegative then .negative else .positive

theorem heading_apply_pos {v : Int64} (hne : v ≠ 0) : 0 < (int v).heading.apply v.toInt := by
  have hint : v.toInt ≠ 0 := fun hzero => hne (Int64.toInt_inj.mp hzero)
  rw [heading]
  split
  · next hneg =>
    have hlt : v.toInt < (0 : Int64).toInt := Int64.lt_iff_toInt_lt.mp (of_decide_eq_true hneg)
    change 0 < -v.toInt
    rw [Int64.toInt_zero] at hlt
    omega
  · next hneg =>
    have hle : ¬ v.toInt < (0 : Int64).toInt := fun hlt =>
      hneg (decide_eq_true (Int64.lt_iff_toInt_lt.mpr hlt))
    change 0 < v.toInt
    rw [Int64.toInt_zero] at hle
    omega

theorem heading_of_finite {x : Float} {d : Sign} {m : ℕ} {e : ℤ} {h : 0 < m}
    (hx : x.toModel.unpack = .finite d m e h) : (double x).heading = d := by
  rw [heading, isNegative_double, hx, unpack_zero]
  cases d <;> rfl

theorem heading_of_infinite {x : Float} {d : Sign} (hx : x.toModel.unpack = .infinity d) :
    (double x).heading = d := by
  rw [heading, isNegative_double, hx, unpack_zero]
  cases d <;> rfl

theorem heading_mul_pos (h : step.IsFinite) (hne : step.isZero = false) :
    0 < signum step.heading * exactValue step.toFloat := by
  cases step with
  | int v =>
    apply Decimal.signum_mul_exactValue_ofInt
    apply heading_apply_pos
    rintro rfl
    cases hne
  | double x =>
    obtain ⟨d, hx⟩ | ⟨d, m, e, hm, hx⟩ := Decimal.unpack_of_isFinite h
    · change x.toModel.unpack.beq (0 : Float).toModel.unpack = false at hne
      rw [hx, unpack_zero] at hne
      cases hne
    · rw [heading_of_finite hx]
      change 0 < signum d * Decimal.valueOfUnpacked x.toModel.unpack
      rw [hx, Decimal.valueOfUnpacked, Decimal.signum_mul_self]
      exact Decimal.mul_zpow_pos hm e

theorem not_le_of_unpack {x y : Float} (h : x.toModel.unpack.le y.toModel.unpack = false) :
    ¬ x ≤ y := by
  intro hle
  have htrue : x.toModel.unpack.le y.toModel.unpack = true := of_decide_eq_true hle
  rw [h] at htrue
  cases htrue

/-- Beyond all doubles in the direction of the step no bound is left. -/
theorem inRange_of_infinite {x : Float} (hx : x.toModel.unpack = .infinity step.heading)
    (hlast : last.IsFinite) : (double x).inRange (!step.isNegative) last = false := by
  have hfinite : last.toFloat.toModel.unpack.isFinite = true := isFinite_toFloat hlast
  rw [heading] at hx
  cases hneg : step.isNegative with
  | false =>
    rw [hneg] at hx
    change _ = Float.Model.UnpackedFloat.infinity .positive at hx
    have hle := Decimal.not_positiveInfinity_le hfinite
    rw [← hx] at hle
    exact decide_eq_false (not_le_of_unpack hle)
  | true =>
    rw [hneg] at hx
    change _ = Float.Model.UnpackedFloat.infinity .negative at hx
    have hle := Decimal.not_le_negativeInfinity hfinite
    rw [← hx] at hle
    exact decide_eq_false (not_le_of_unpack hle)

theorem inRange_of_notANumber {x : Float} (hx : x.toModel.unpack = .notANumber) (up : Bool) :
    (double x).inRange up last = false := by
  have hle : ¬ x ≤ last.toFloat := not_le_of_unpack (by rw [hx]; rfl)
  have hge : ¬ last.toFloat ≤ x := by
    apply not_le_of_unpack
    rw [hx]
    cases last.toFloat.toModel.unpack <;> rfl
  cases up with
  | false => exact decide_eq_false hge
  | true => exact decide_eq_false hle

/-- The sum of a finite double and a step is finite or out of the range. -/
theorem isFinite_add {x : Float} (hx : x.isFinite = true) (hlast : last.IsFinite)
    (hzero : step.isZero = false)
    (hin : (double (x + step.toFloat)).inRange (!step.isNegative) last = true) :
    (x + step.toFloat).isFinite = true := by
  have hout (hinfinite : (x + step.toFloat).toModel.unpack = .infinity step.heading) :
      (x + step.toFloat).isFinite = true := by
    rw [inRange_of_infinite hinfinite hlast] at hin
    cases hin
  by_cases hstep : step.IsFinite
  · obtain ⟨hsum, -⟩ | hinfinite :=
      Decimal.add_leads hx (isFinite_toFloat hstep) (heading_mul_pos hstep hzero)
    · exact hsum
    · exact hout hinfinite
  · cases step with
    | int v => exact absurd trivial hstep
    | double s =>
      obtain ⟨d, hs⟩ | hs := Decimal.unpack_of_not_isFinite hstep
      · apply hout
        rw [heading_of_infinite hs]
        exact Decimal.add_infinite hx hs
      · have hundefined := Decimal.add_notANumber hx hs
        exact absurd hin (Bool.eq_false_iff.mp (inRange_of_notANumber hundefined _))

theorem advance_double (y : Float) (step : Number) :
    (double y).advance step = some (.double (y + step.toFloat)) := by
  cases step <;> rfl

/-- A counter that has not passed a finite bound is finite. -/
theorem isFinite_advance {next : Number} (hn : n.IsFinite) (hlast : last.IsFinite)
    (hzero : step.isZero = false) (hadvance : n.advance step = some next)
    (hin : next.inRange (!step.isNegative) last = true) : next.IsFinite := by
  have hdouble (hsum : some (double (n.toFloat + step.toFloat)) = some next) : next.IsFinite := by
    obtain rfl := Option.some.inj hsum
    exact isFinite_add (isFinite_toFloat hn) hlast hzero hin
  cases n with
  | double x =>
    rw [advance_double] at hadvance
    exact hdouble hadvance
  | int v =>
    cases step with
    | double y => exact hdouble hadvance
    | int w =>
      obtain ⟨u, -, rfl⟩ := Option.map_eq_some_iff.mp hadvance
      trivial

end Number

end PageServer.Template
