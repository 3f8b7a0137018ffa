import Mathlib
import PageServer.Decimal.Integer

/-!
# Digits of whole numbers

Whole numbers are read back from their digits, and as many digits as a number
has, so large it is.
-/

namespace PageServer.Decimal

theorem takeSign_cons_digit {d : Char} (h : d.isDigit = true) (ds : List Char) :
    takeSign (d :: ds) = (false, d :: ds) := by
  unfold takeSign
  split
  · next heq =>
    obtain ⟨rfl, -⟩ := List.cons.inj heq
    cases h
  · next heq =>
    obtain ⟨rfl, -⟩ := List.cons.inj heq
    cases h
  · rfl

theorem takeSign_of_digits {ds : List Char} (h : ∀ c ∈ ds, c.isDigit = true) :
    takeSign ds = (false, ds) := by
  cases ds with
  | nil => rfl
  | cons c cs => exact takeSign_cons_digit (h c List.mem_cons_self) cs

/-- The text of a number with so many zeros between its sign and its digits. -/
def padded (k : Nat) : List Char → List Char
  | '-' :: ds => '-' :: (zeros k ++ ds)
  | ds => zeros k ++ ds

theorem padded_cons_digit (k : Nat) {d : Char} (h : d.isDigit = true) (ds : List Char) :
    padded k (d :: ds) = zeros k ++ d :: ds := by
  unfold padded
  split
  · next heq =>
    obtain ⟨rfl, -⟩ := List.cons.inj heq
    cases h
  · rfl

theorem padded_digits (k n : Nat) : padded k (digits n) = zeros k ++ digits n := by
  obtain ⟨d, ds, hdigits⟩ := List.exists_cons_of_ne_nil (digits_ne_nil n)
  have hd : d ∈ digits n := by
    rw [hdigits]
    exact List.mem_cons_self
  rw [hdigits]
  exact padded_cons_digit k (isDigit_of_mem_digits hd) ds

theorem padded_zero (cs : List Char) : padded 0 cs = cs := by
  unfold padded
  split <;> rfl

theorem isDigit_of_mem_zeros {k : Nat} {c : Char} (h : c ∈ zeros k) : c.isDigit = true := by
  rw [List.eq_of_mem_replicate h]
  decide

theorem nat?_zeros_digits (k n : Nat) : nat? (zeros k ++ digits n) = some n := by
  have hne : (zeros k ++ digits n).isEmpty = false := by
    rw [List.isEmpty_eq_false_iff]
    exact List.append_ne_nil_of_right_ne_nil _ (digits_ne_nil n)
  have hall : (zeros k ++ digits n).all Char.isDigit = true := by
    rw [List.all_append, Bool.and_eq_true, List.all_eq_true, List.all_eq_true]
    exact ⟨fun _ => isDigit_of_mem_zeros, fun _ => isDigit_of_mem_digits⟩
  simp [nat?, hne, hall]

theorem int?_padded (k : Nat) (i : Int) : int? (padded k (signed i)) = some i := by
  have hnat := nat?_zeros_digits k i.natAbs
  rw [signed]
  by_cases hneg : i < 0
  · have hvalue : -(i.natAbs : Int) = i := by omega
    rw [if_pos hneg]
    simp only [padded, int?, takeSign, hnat, if_true]
    exact congrArg some hvalue
  · have hvalue : (i.natAbs : Int) = i := by omega
    have hsign : takeSign (zeros k ++ digits i.natAbs) = (false, zeros k ++ digits i.natAbs) := by
      apply takeSign_of_digits
      rw [List.forall_mem_append]
      exact ⟨fun _ => isDigit_of_mem_zeros, fun _ => isDigit_of_mem_digits⟩
    rw [if_neg hneg, padded_digits]
    simp only [int?, hsign, hnat, Bool.false_eq_true, if_false]
    exact congrArg some hvalue

/-- Zeros in front of the digits make no difference. -/
theorem readInt64?_padded (k : Nat) (v : Int64) :
    readInt64? (padded k (signed v.toInt)) = some v := by
  rw [readInt64?, int?_padded]
  exact int64?_eq_some_iff.mpr rfl

theorem readInt64?_signed (v : Int64) : readInt64? (signed v.toInt) = some v := by
  have hread := readInt64?_padded 0 v
  rwa [padded_zero] at hread

theorem lt_pow_length_digits (n : ℕ) : n < 10 ^ (digits n).length :=
  (Nat.length_toDigits_le_iff (by decide) Nat.length_toDigits_pos).mp le_rfl

theorem pow_length_digits_le {n : ℕ} (hn : 0 < n) : 10 ^ ((digits n).length - 1) ≤ n := by
  by_contra hlt
  rw [not_le] at hlt
  obtain hone | hmore : (digits n).length - 1 = 0 ∨ 0 < (digits n).length - 1 := by omega
  · rw [hone] at hlt
    omega
  · have hle := (Nat.length_toDigits_le_iff (by decide) hmore).mpr hlt
    change (digits n).length ≤ (digits n).length - 1 at hle
    omega

end PageServer.Decimal
