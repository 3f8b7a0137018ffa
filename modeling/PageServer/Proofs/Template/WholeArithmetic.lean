import PageServer.Proofs.Decimal.Whole
import PageServer.Template.Value

/-!
# Arithmetic on whole numbers

An operator on two whole numbers computes the exact result and refuses it only
if it has no room in 64 bits. Powers are the one exception: an exponent beyond
32 bits is refused, even if the base is -1, 0 or 1 and the power is small.
-/

namespace PageServer.Template

open Decimal

/-- What an operator makes of two whole numbers when nothing is bounded. A
quotient is rounded toward zero. -/
inductive ExactResult (x : ℤ) : Char → ℤ → ℤ → Prop
  | sum {y : ℤ} : ExactResult x '+' y (x + y)
  | difference {y : ℤ} : ExactResult x '-' y (x - y)
  | product {y : ℤ} : ExactResult x '*' y (x * y)
  | quotient {y : ℤ} (hy : y ≠ 0) : ExactResult x '/' y (x.tdiv y)
  | power {y : ℤ} (hy : 0 ≤ y) : ExactResult x '^' y (x ^ y.toNat)

/-- A power whose exponent has more than 32 bits. -/
def LongPower (op : Char) (y : ℤ) : Prop :=
  op = '^' ∧ 2 ^ 32 ≤ y

/-- The result if it has room, the refusal otherwise. -/
def exactOrRefused (x : Int64) (op : Char) (y : Int64) : Option Int64 → Except ValueError Value
  | some v => .ok (.int v)
  | none => .error (.overflow x op y)

section Whole

variable {x y : Int64} {op : Char} {r : ℤ}

theorem applyInt_quotient (hy : y.toInt ≠ 0) :
    applyInt '/' x y = exactOrRefused x '/' y (int64? (x.toInt.tdiv y.toInt)) := by
  have hne : y ≠ 0 := by
    rintro rfl
    exact hy rfl
  simp only [applyInt, if_neg hne]
  rfl

theorem applyInt_power (hy : 0 ≤ y.toInt) :
    applyInt '^' x y = exactOrRefused x '^' y (Int64Arith.pow? x y.toInt.toNat) := by
  have hnonneg : ¬ y < 0 := by
    rw [Int64.lt_iff_toInt_lt]
    exact not_lt.mpr hy
  simp only [applyInt, if_neg hnonneg]
  rfl

theorem ExactResult.applyInt_eq (h : ExactResult x.toInt op y.toInt r)
    (hlong : ¬ LongPower op y.toInt) :
    applyInt op x y = exactOrRefused x op y (int64? r) := by
  generalize hj : y.toInt = j at h hlong
  cases h with
  | sum => subst hj; rfl
  | difference => subst hj; rfl
  | product => subst hj; rfl
  | quotient hy =>
    subst hj
    exact applyInt_quotient hy
  | power hy =>
    subst hj
    have hshort : y.toInt.toNat < 2 ^ 32 := by
      by_contra hmany
      exact hlong ⟨rfl, by omega⟩
    rw [applyInt_power hy, Int64Arith.pow?_eq x hshort]

theorem applyInt_of_longPower (h : LongPower op y.toInt) :
    applyInt op x y = .error (.overflow x op y) := by
  obtain ⟨rfl, hlong⟩ := h
  rw [applyInt_power (by omega), Int64Arith.pow?_of_long_exponent x (by omega)]
  rfl

theorem applyOperator_of_whole {left right : Value} (hleft : left.toNumber = .ok (.int x))
    (hright : right.toNumber = .ok (.int y)) (op : Char) :
    applyOperator op left right = applyInt op x y := by
  rw [applyOperator, hleft, hright]
  rfl

end Whole

/-- Whole numbers, also those that strings spell, are computed with exactly. A
result without room is refused, as is every power with a long exponent. -/
theorem exact_unless_long_power {x y : Int64} {left right : Value}
    (hleft : left.toNumber = .ok (.int x)) (hright : right.toNumber = .ok (.int y)) :
    (∀ {op : Char} {r : ℤ}, ExactResult x.toInt op y.toInt r →
      (Fits r ∧ ¬ LongPower op y.toInt →
        ∃ v : Int64, v.toInt = r ∧ applyOperator op left right = .ok (.int v)) ∧
      (¬ Fits r ∨ LongPower op y.toInt →
        applyOperator op left right = .error (.overflow x op y))) ∧
    (y = 0 → applyOperator '/' left right = .error .divisionByZero) := by
  refine ⟨fun {op r} hr => ⟨?_, ?_⟩, ?_⟩
  · rintro ⟨hfits, hlong⟩
    obtain ⟨v, hv, hread⟩ := hfits.int64?
    refine ⟨v, hv, ?_⟩
    rw [applyOperator_of_whole hleft hright, hr.applyInt_eq hlong, hread]
    rfl
  · intro hrefused
    rw [applyOperator_of_whole hleft hright]
    by_cases hlong : LongPower op y.toInt
    · exact applyInt_of_longPower hlong
    · have hfits := hrefused.resolve_right hlong
      rw [hr.applyInt_eq hlong, int64?_of_not_fits hfits]
      rfl
  · rintro rfl
    rw [applyOperator_of_whole hleft hright]
    rfl

/-- The least number of 64 bits is a power of -2. -/
theorem least_power_exact :
    let left : Value := .string " -2"
    let right : Value := .string "+63 "
    left.toNumber = .ok (.int (-2)) ∧ right.toNumber = .ok (.int 63) ∧
      ∃ v : Int64, v.toInt = -2 ^ 63 ∧ applyOperator '^' left right = .ok (.int v) := by
  intro left right
  have hleft : left.toNumber = .ok (.int (-2)) := rfl
  have hright : right.toNumber = .ok (.int 63) := rfl
  have hpower : ExactResult (-2 : Int64).toInt '^' (63 : Int64).toInt (-2 ^ 63) :=
    .power (by decide)
  refine ⟨hleft, hright, ?_⟩
  exact ((exact_unless_long_power hleft hright).1 hpower).1
    ⟨by simp [Fits], fun hlong => absurd hlong.2 (by decide)⟩

/-- One is its own power, but not if the exponent is that long. -/
theorem long_power_of_one_refused :
    ExactResult (1 : Int64).toInt '^' (4294967296 : Int64).toInt 1 ∧ Fits 1 ∧
      applyOperator '^' (.int 1) (.int 4294967296) = .error (.overflow 1 '^' 4294967296) := by
  have hone : (1 : Int64).toInt ^ (4294967296 : Int64).toInt.toNat = 1 := one_pow _
  have hpower : ExactResult (1 : Int64).toInt '^' (4294967296 : Int64).toInt
      ((1 : Int64).toInt ^ (4294967296 : Int64).toInt.toNat) := .power (by decide)
  have hlong : LongPower '^' (4294967296 : Int64).toInt := ⟨rfl, by decide⟩
  rw [hone] at hpower
  exact ⟨hpower, by norm_num [Fits], applyInt_of_longPower hlong⟩

end PageServer.Template
