import PageServer.Decimal.Notation
import PageServer.Proofs.Decimal.Nearness
import PageServer.Proofs.Decimal.Reading

/-!
# Doubles read back from their text

The text of a finite double has digits on both sides of a point, and they are
read as that double: the decimal lies in the interval of the double, and what
lies in it is read as the double.
-/

namespace PageServer.Decimal

open Float.Model
open Float.Model.UnpackedFloat

/-- Digits on both sides of a point that stand for that number. -/
def IsFraction (text : List Char) (v : ℚ) : Prop :=
  ∃ whole places : List Char, text = whole ++ '.' :: places ∧ whole ≠ [] ∧ places ≠ [] ∧
    (∀ c ∈ whole ++ places, c.isDigit = true) ∧
    (ofDigits (whole ++ places) : ℚ) / 10 ^ places.length = v

/-- The text of a double has digits on both sides of a point and is read as that
double. -/
def ReadsBack (x : Float) : Prop :=
  ∃ (negative : Bool) (whole places : List Char),
    pointed x = (if negative then ['-'] else []) ++ whole ++ '.' :: places ∧
    whole ≠ [] ∧ places ≠ [] ∧ (∀ c ∈ whole ++ places, c.isDigit = true) ∧
    (let y := ofScientific (ofDigits (whole ++ places)) (-(places.length : Int))
    if negative then -y else y) = x

/-! ### Text -/

def withPoint (text : List Char) : List Char :=
  if text.contains '.' then text else text ++ ['.', '0']

theorem not_contains_point {cs : List Char} (h : ∀ c ∈ cs, c.isDigit = true) :
    cs.contains '.' = false := by
  rw [List.contains_eq_mem, decide_eq_false_iff_not]
  intro hmem
  exact absurd (h '.' hmem) (by decide)

theorem withPoint_signed (negative : Bool) (body : List Char) :
    withPoint ((if negative then ['-'] else []) ++ body) =
      (if negative then ['-'] else []) ++ withPoint body := by
  have hsign : ((if negative then ['-'] else []) ++ body).contains '.' = body.contains '.' := by
    cases negative <;> simp
  rw [withPoint, withPoint, hsign]
  split <;> simp

theorem isFraction_whole {ds : List Char} (hne : ds ≠ []) (h : ∀ c ∈ ds, c.isDigit = true) :
    IsFraction (ds ++ ['.', '0']) (ofDigits ds) := by
  refine ⟨ds, ['0'], rfl, hne, by simp, ?_, ?_⟩
  · intro c hc
    obtain hc | hc := List.mem_append.mp hc
    · exact h c hc
    · obtain rfl := List.mem_singleton.mp hc
      decide
  · have hvalue : ofDigits (ds ++ ['0']) = 10 * ofDigits ds := by
      rw [ofDigits, Nat.ofDigitChars_append, Nat.ofDigitChars_cons, Nat.ofDigitChars_nil]
      rfl
    rw [hvalue]
    push_cast
    rw [List.length_singleton, pow_one, mul_div_cancel_left₀ _ (by norm_num)]

theorem ofDigits_append_zeros (ds : List Char) (n : ℕ) :
    ofDigits (ds ++ zeros n) = 10 ^ n * ofDigits ds := by
  rw [ofDigits, Nat.ofDigitChars_append, zeros, Nat.ofDigitChars_replicate_zero]
  rfl

/-- The point stands before the last digits. -/
theorem isFraction_inside {c p : ℕ} (hp : 0 < p) (hlt : p < (digits c).length) :
    IsFraction (withPoint ((digits c).take ((digits c).length - p) ++
      '.' :: (digits c).drop ((digits c).length - p))) (c / 10 ^ p) := by
  have hpoint : withPoint ((digits c).take ((digits c).length - p) ++
      '.' :: (digits c).drop ((digits c).length - p)) = _ := if_pos (by simp)
  have hlength : ((digits c).drop ((digits c).length - p)).length = p := by
    rw [List.length_drop]
    omega
  rw [hpoint]
  refine ⟨_, _, rfl, ?_, ?_, ?_, ?_⟩
  · rw [ne_eq, List.take_eq_nil_iff]
    rintro (hnone | hnil)
    · omega
    · exact digits_ne_nil _ hnil
  · intro hnil
    rw [hnil, List.length_nil] at hlength
    omega
  · rw [List.take_append_drop]
    exact fun _ => isDigit_of_mem_digits
  · rw [List.take_append_drop, ofDigits_digits, hlength]

/-- All digits stand after the point, maybe behind zeros. -/
theorem isFraction_outside {c p : ℕ} (hle : (digits c).length ≤ p) :
    IsFraction (withPoint ('0' :: '.' :: (zeros (p - (digits c).length) ++ digits c)))
      (c / 10 ^ p) := by
  have hpoint : withPoint ('0' :: '.' :: (zeros (p - (digits c).length) ++ digits c)) = _ :=
    if_pos (by simp)
  have hlength : (zeros (p - (digits c).length) ++ digits c).length = p := by
    rw [List.length_append, zeros, List.length_replicate]
    omega
  have hzeros : ['0'] ++ (zeros (p - (digits c).length) ++ digits c) =
      zeros (p - (digits c).length + 1) ++ digits c := by
    rw [zeros, zeros, List.replicate_succ]
    rfl
  rw [hpoint]
  refine ⟨['0'], _, rfl, by simp, ?_, ?_, ?_⟩
  · simp [digits_ne_nil]
  · rw [hzeros]
    intro d hd
    obtain hd | hd := List.mem_append.mp hd
    · exact isDigit_of_mem_zeros hd
    · exact isDigit_of_mem_digits hd
  · rw [hzeros, ofDigits_zeros_append, ofDigits_digits, hlength]

/-- The text of a decimal has the value of the decimal. -/
theorem isFraction_plainScientific (s : Scientific) :
    IsFraction (withPoint (plainScientific s)) (s.coefficient * 10 ^ s.exponent) := by
  rw [plainScientific]
  dsimp only
  split
  · next hexp =>
    have hall : ∀ c ∈ digits s.coefficient ++ zeros s.exponent.toNat, c.isDigit = true := by
      intro c hc
      obtain hc | hc := List.mem_append.mp hc
      · exact isDigit_of_mem_digits hc
      · exact isDigit_of_mem_zeros hc
    have hvalue : (ofDigits (digits s.coefficient ++ zeros s.exponent.toNat) : ℚ) =
        s.coefficient * 10 ^ s.exponent := by
      have hpow : (10 : ℚ) ^ s.exponent = 10 ^ s.exponent.toNat := by
        rw [← zpow_natCast, Int.toNat_of_nonneg hexp]
      rw [ofDigits_append_zeros, ofDigits_digits, hpow, mul_comm]
      push_cast
      rfl
    rw [withPoint, if_neg (by rw [not_contains_point hall]; exact Bool.false_ne_true), ← hvalue]
    exact isFraction_whole (by simp [digits_ne_nil]) hall
  · next hexp =>
    obtain ⟨p, hp⟩ : ∃ p : ℕ, (-s.exponent).toNat = p := ⟨_, rfl⟩
    have hpow : (10 : ℚ) ^ s.exponent = (10 ^ p)⁻¹ := by
      rw [← zpow_natCast, ← zpow_neg]
      congr 1
      omega
    rw [hp, hpow, ← div_eq_mul_inv]
    split
    · next hinside => exact isFraction_inside (by omega) hinside
    · next houtside => exact isFraction_outside (by omega)

/-! ### Values -/

theorem IsFraction.read {text : List Char} {v : ℚ} {m : ℕ} {e : ℤ} (h : IsFraction text v)
    (hc : Canonical m e) (hv : RoundsTo m e v) :
    ∃ whole places : List Char, text = whole ++ '.' :: places ∧ whole ≠ [] ∧ places ≠ [] ∧
      (∀ c ∈ whole ++ places, c.isDigit = true) ∧
      ofScientific (ofDigits (whole ++ places)) (-(places.length : Int)) =
        Float.ofModel (.pack (.finite .positive m e hc.pos)) := by
  obtain ⟨whole, places, htext, hwhole, hplaces, hdigits, hvalue⟩ := h
  refine ⟨whole, places, htext, hwhole, hplaces, hdigits, ?_⟩
  rw [← hvalue] at hv
  exact ofScientific_eq hc (List.length_pos_of_ne_nil hplaces) hv

theorem neg_ofModel_pack {m : ℕ} {e : ℤ} (hc : Canonical m e) :
    -Float.ofModel (.pack (.finite .positive m e hc.pos)) =
      Float.ofModel (.pack (.finite .negative m e hc.pos)) := by
  change Float.ofModel (.pack (Float.Model.pack (.finite .positive m e hc.pos)).unpack.neg) = _
  rw [unpack_pack _ hc]
  rfl

theorem pointed_eq {x : Float} {negative : Bool} {m : ℕ} {e : ℤ}
    (hx : Binary64.ofFloat x = .finite negative m e) :
    pointed x = (if negative then ['-'] else []) ++
      withPoint (if m = 0 then ['0'] else plainScientific (shortest .up m e)) := by
  have hplain : plain x = (if negative then ['-'] else []) ++
      if m = 0 then ['0'] else plainScientific (shortest .up m e) := by
    rw [plain, hx]
  rw [← withPoint_signed, ← hplain]
  rfl

/-- Every finite double is read back from its text. -/
theorem readsBack_of_isFinite {x : Float} (h : x.isFinite = true) : ReadsBack x := by
  have hsame := pack_unpack_toModel x
  change x.toModel.unpack.isFinite = true at h
  cases hx : x.toModel.unpack with
  | zero s =>
    rw [hx] at hsame
    have hfloat : Binary64.ofFloat x = .finite (s == .negative) 0 (-1074) := by
      rw [Binary64.ofFloat_eq, hx]
      rfl
    refine ⟨s == .negative, ['0'], ['0'], ?_, by simp, by simp, by simp, ?_⟩
    · rw [pointed_eq hfloat, List.append_assoc]
      rfl
    · -- the sign of a zero is kept, so both zeros are read back
      rw [← hsame]
      cases s <;> decide +kernel
  | finite s m e hm =>
    rw [hx] at hsame
    have hc := canonical_of_unpack hx
    have hfloat : Binary64.ofFloat x = .finite (s == .negative) m e := by
      rw [Binary64.ofFloat_eq, hx]
      rfl
    obtain ⟨whole, places, htext, hwhole, hplaces, hdigits, hread⟩ :=
      (isFraction_plainScientific (shortest .up m e)).read hc (roundsTo_shortest hc)
    refine ⟨s == .negative, whole, places, ?_, hwhole, hplaces, hdigits, ?_⟩
    · rw [pointed_eq hfloat, if_neg hm.ne', htext, List.append_assoc]
    · rw [hread]
      cases s with
      | positive => exact hsame
      | negative => exact (neg_ofModel_pack hc).trans hsame
  | infinity s =>
    rw [hx] at h
    cases h
  | notANumber =>
    rw [hx] at h
    cases h

/-! ### Reading a text -/

theorem mantissa?_fraction {whole places : List Char} (hne : whole ≠ [])
    (hwhole : ∀ c ∈ whole, c.isDigit = true) (hplaces : ∀ c ∈ places, c.isDigit = true) :
    mantissa? (whole ++ '.' :: places) = some (ofDigits (whole ++ places), places.length, []) := by
  have hpoint : ('.' :: places).takeWhile Char.isDigit = [] := rfl
  have hrest : ('.' :: places).dropWhile Char.isDigit = '.' :: places := rfl
  have hall : places.takeWhile Char.isDigit = places := List.takeWhile_eq_self_iff.mpr hplaces
  have hnone : places.dropWhile Char.isDigit = [] := List.dropWhile_eq_nil_iff.mpr hplaces
  simp [mantissa?, List.takeWhile_append_of_pos hwhole, List.dropWhile_append_of_pos hwhole,
    hpoint, hrest, hall, hnone, hne]

theorem unsigned?_fraction {whole places : List Char} (hne : whole ≠ [])
    (hwhole : ∀ c ∈ whole, c.isDigit = true) (hplaces : ∀ c ∈ places, c.isDigit = true) :
    unsigned? (whole ++ '.' :: places) =
      some (ofScientific (ofDigits (whole ++ places)) (-(places.length : Int))) := by
  have hpoint : '.' ∈ (whole ++ '.' :: places).map Char.toLower :=
    List.mem_map.mpr ⟨'.', by simp, rfl⟩
  have hname {name : List Char} (h : '.' ∉ name) :
      (whole ++ '.' :: places).map Char.toLower ≠ name := by
    rintro rfl
    exact h hpoint
  have hinfinity := @hname "infinity".toList (by decide)
  have hinf := @hname "inf".toList (by decide)
  have hnan := @hname "nan".toList (by decide)
  simp only [unsigned?, hinf, hinfinity, hnan, mantissa?_fraction hne hwhole hplaces]
  simp [exponent?]

/-- A double is read from its text. -/
theorem readFloat?_pointed {x : Float} (h : x.isFinite = true) :
    readFloat? (pointed x) = some x := by
  obtain ⟨negative, whole, places, htext, hne, -, hdigits, hvalue⟩ := readsBack_of_isFinite h
  obtain ⟨hwhole, hplaces⟩ := List.forall_mem_append.mp hdigits
  have hbody := unsigned?_fraction hne hwhole hplaces
  have hsign : takeSign (pointed x) = (negative, whole ++ '.' :: places) := by
    rw [htext]
    cases negative with
    | true => rfl
    | false =>
      obtain ⟨d, ds, rfl⟩ := List.exists_cons_of_ne_nil hne
      exact takeSign_cons_digit (hwhole d List.mem_cons_self) _
  rw [readFloat?, hsign]
  dsimp only
  rw [hbody, Option.map_some]
  exact congrArg some hvalue

end PageServer.Decimal
