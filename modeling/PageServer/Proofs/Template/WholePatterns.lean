import PageServer.Proofs.Decimal.Conversion
import PageServer.Proofs.Template.Patterns

/-!
# Whole numbers in patterns

Whatever a pattern is, a whole number is written by it without a fraction. But the number
is made a double first, so its digits are kept only if it has no more bits than a mantissa
has room for, zeros at the end not counted.
-/

namespace PageServer.Template

open Decimal (digits zeros exactValue excess fixed fixedDigits IsRounding)

/-! ### Numerals of whole numbers -/

/-- The digits without needless zeros in front: of zero there are none. -/
def significant (n : ℕ) : List Char :=
  if n = 0 then [] else digits n

/-- The numeral is that of a whole number, but for zeros in front and after the point. -/
structure Numeral.IsWhole (d : Numeral) (i : ℤ) : Prop where
  negative : d.negative = true ↔ i < 0
  whole : ∃ j, d.whole = zeros j ++ significant i.natAbs
  places : ∃ j, d.places = zeros j
  ne_nil : d.whole ++ d.places ≠ []

/-- The text has the digits of a whole number and a sign if it is negative, perhaps with
zeros in front and a fraction that is zero. -/
def Denotes (text : String) (i : ℤ) : Prop :=
  ∃ d : Numeral, text.toList = d.chars ∧ d.IsWhole i

theorem isDigit_of_mem_significant {n : ℕ} {c : Char} (h : c ∈ significant n) :
    c.isDigit = true := by
  rw [significant] at h
  split at h
  · exact absurd h List.not_mem_nil
  · exact Decimal.isDigit_of_mem_digits h

theorem ofDigits_significant (n : ℕ) : Decimal.ofDigits (significant n) = n := by
  rw [significant]
  split
  · next hzero => exact hzero.symm
  · exact Decimal.ofDigits_digits n

theorem exists_mem_significant {n : ℕ} (hn : n ≠ 0) : ∃ c ∈ significant n, c ≠ '0' := by
  by_contra hnone
  apply hn
  rw [← ofDigits_significant n]
  apply Pattern.ofDigits_of_all_zero
  intro c hc
  by_contra hne
  exact hnone ⟨c, hc, hne⟩

namespace Numeral

variable {d : Numeral} {i : ℤ}

theorem IsWhole.isDigit (h : d.IsWhole i) : ∀ c ∈ d.whole, c.isDigit = true := by
  obtain ⟨j, hwhole⟩ := h.whole
  rw [hwhole]
  exact List.forall_mem_append.mpr
    ⟨fun _ => Decimal.isDigit_of_mem_zeros, fun _ => isDigit_of_mem_significant⟩

theorem IsWhole.ofDigits_whole (h : d.IsWhole i) : Decimal.ofDigits d.whole = i.natAbs := by
  obtain ⟨j, hwhole⟩ := h.whole
  rw [hwhole, Decimal.ofDigits_zeros_append, ofDigits_significant]

/-- What a numeral says behind its sign. -/
def unsigned (d : Numeral) : List Char :=
  d.whole ++ if d.places = [] then [] else '.' :: d.places

theorem chars_eq (d : Numeral) :
    d.chars = if d.negative then '-' :: d.unsigned else d.unsigned := by
  rw [chars, unsigned, List.append_assoc]
  split <;> rfl

theorem takeWhile_unsigned (h : ∀ c ∈ d.whole, c.isDigit = true) :
    d.unsigned.takeWhile Char.isDigit = d.whole := by
  rw [unsigned, List.takeWhile_append_of_pos h]
  split
  · exact List.append_nil _
  · have hpoint : ¬ '.'.isDigit = true := by decide
    rw [List.takeWhile_cons_of_neg hpoint, List.append_nil]

theorem head?_unsigned (h : ∀ c ∈ d.whole, c.isDigit = true) : d.unsigned.head? ≠ some '-' := by
  rw [unsigned]
  cases hwhole : d.whole with
  | nil =>
    split
    · exact (Option.some_ne_none _).symm
    · exact fun hhead => absurd (Option.some.inj hhead) (by decide)
  | cons c rest =>
    intro hhead
    have hdigit := h c (hwhole ▸ List.mem_cons_self)
    rw [Option.some.inj hhead] at hdigit
    exact absurd hdigit (by decide)

theorem head?_chars_iff (h : ∀ c ∈ d.whole, c.isDigit = true) :
    d.chars.head? = some '-' ↔ d.negative = true := by
  rw [chars_eq]
  split
  · next hnegative => exact iff_of_true rfl hnegative
  · next hnegative => exact iff_of_false (head?_unsigned h) hnegative

end Numeral

/-- No text denotes two numbers. -/
theorem Denotes.unique {text : String} {i j : ℤ} (hi : Denotes text i) (hj : Denotes text j) :
    i = j := by
  obtain ⟨d, hd, hdi⟩ := hi
  obtain ⟨d', hd', hdj⟩ := hj
  have hchars : d.chars = d'.chars := hd.symm.trans hd'
  have hsign : i < 0 ↔ j < 0 := by
    rw [← hdi.negative, ← hdj.negative, ← Numeral.head?_chars_iff hdi.isDigit,
      ← Numeral.head?_chars_iff hdj.isDigit, hchars]
  have hnegative : d.negative = d'.negative := by
    rw [Bool.eq_iff_iff, hdi.negative, hdj.negative, hsign]
  have hunsigned : d.unsigned = d'.unsigned := by
    rw [Numeral.chars_eq, Numeral.chars_eq, hnegative] at hchars
    split at hchars
    · exact (List.cons.inj hchars).2
    · exact hchars
  have hwhole : d.whole = d'.whole := by
    rw [← Numeral.takeWhile_unsigned hdi.isDigit, ← Numeral.takeWhile_unsigned hdj.isDigit,
      hunsigned]
  have hsize : i.natAbs = j.natAbs := by
    rw [← hdi.ofDigits_whole, ← hdj.ofDigits_whole, hwhole]
  omega

/-! ### Digits of a whole number in a pattern -/

namespace Pattern

theorem trimZeros_zeros {least k : ℕ} (h : least ≤ k) :
    ∃ j, trimZeros least (zeros k) = zeros j := by
  have hlength : least ≤ (zeros k).length := by
    rw [zeros, List.length_replicate]
    exact h
  obtain ⟨j, hdropped⟩ := (isTrimmed_trimZeros hlength).dropped
  refine ⟨(trimZeros least (zeros k)).length, List.eq_replicate_of_mem ?_⟩
  intro c hc
  have hmem : c ∈ zeros k := by
    rw [hdropped]
    exact List.mem_append_left _ hc
  exact List.eq_of_mem_replicate hmem

theorem exists_wholeOf_digits (p : Pattern) (n : ℕ) (places : List Char) :
    ∃ j, p.wholeOf (digits n) places = zeros j ++ significant n := by
  have hdigits : ∃ j, digits n = zeros j ++ significant n := by
    rw [significant]
    split
    · next hzero =>
      subst hzero
      exact ⟨1, rfl⟩
    · exact ⟨0, rfl⟩
  obtain ⟨j, hj⟩ := hdigits
  rw [wholeOf]
  split
  · next hleft =>
    -- only a zero is left out
    have hnone : significant n = [] := by
      rw [significant, if_pos]
      have hvalue := congrArg Decimal.ofDigits hleft.2.1
      rwa [Decimal.ofDigits_zeros_append, Decimal.ofDigits_digits] at hvalue
    rw [hnone]
    exact ⟨0, rfl⟩
  · refine ⟨p.minWhole - (digits n).length + j, ?_⟩
    rw [hj, ← List.append_assoc, zeros, zeros, zeros, List.replicate_append_replicate]

theorem isWhole_numeral {p : Pattern} (hp : p.minPlaces ≤ p.maxPlaces) (i : ℤ) :
    (p.numeral (i < 0) (digits i.natAbs) (zeros p.maxPlaces)).IsWhole i := by
  have hfixed := Decimal.isFixed_fixedDigits (i.natAbs * 10 ^ p.maxPlaces) p.maxPlaces
  rw [Decimal.fixedDigits_mul_pow] at hfixed
  have hfollows : (p.numeral (i < 0) (digits i.natAbs) (zeros p.maxPlaces)).Follows p :=
    follows_numeral hfixed hp
  obtain ⟨j, hplaces⟩ := trimZeros_zeros hp
  obtain ⟨k, hwhole⟩ := p.exists_wholeOf_digits i.natAbs (zeros j)
  rw [← hplaces] at hwhole
  refine ⟨?_, ⟨k, hwhole⟩, ⟨j, hplaces⟩, ?_⟩
  · rw [negative_numeral_iff, decide_eq_true_iff]
    apply and_iff_left_of_imp
    intro hnegative
    obtain ⟨c, hc, hne⟩ := exists_mem_significant (by omega : i.natAbs ≠ 0)
    have hmem : c ∈ p.wholeOf (digits i.natAbs) (trimZeros p.minPlaces (zeros p.maxPlaces)) := by
      rw [hwhole]
      exact List.mem_append_right _ hc
    exact ⟨c, List.mem_append_left _ hmem, hne⟩
  · intro hnil
    obtain ⟨hnone, hempty⟩ := List.append_eq_nil_iff.mp hnil
    exact (hfollows.whole_nil hnone).2 hempty

end Pattern

/-! ### Formatted whole numbers -/

/-- A double without a fraction is written with the digits of that number. -/
theorem denotes_formatDecimal {x : Number} (hx : x.IsFinite) {i : ℤ}
    (hi : exactValue x.toFloat = i) (pattern : String) : Denotes (formatDecimal x pattern) i := by
  let p := Pattern.ofChars pattern.toList
  have hp : p.minPlaces ≤ p.maxPlaces := Nat.le_add_right _ _
  obtain ⟨n, hfixed, hrounding⟩ :=
    Decimal.exists_fixed_eq (Number.isFinite_toFloat hx) p.maxPlaces
  have hunits : n = i.natAbs * 10 ^ p.maxPlaces := by
    have hwhole : |exactValue x.toFloat| * 10 ^ p.maxPlaces =
        ((i.natAbs * 10 ^ p.maxPlaces : ℕ) : ℤ) := by
      rw [hi]
      push_cast
      rfl
    rw [hwhole] at hrounding
    exact_mod_cast hrounding.eq_of_intCast
  rw [hunits, Decimal.fixedDigits_mul_pow] at hfixed
  have hnegative : decide (x.toFloat < 0) = decide (i < 0) := by
    rw [Bool.eq_iff_iff, toFloat_lt_zero_iff hx, hi, decide_eq_true_iff]
    exact_mod_cast Iff.rfl
  refine ⟨_, ?_, Pattern.isWhole_numeral hp i⟩
  have hne : (fixed x.toFloat p.maxPlaces).1 ≠ [] := by
    rw [hfixed]
    exact Decimal.digits_ne_nil _
  have hformat := Pattern.format_eq hne
  rw [hfixed, hnegative] at hformat
  rw [formatDecimal, String.toList_ofList]
  exact hformat

/-- A whole number is rounded to 53 bits before it is written, to the nearest multiple of a
power of two and halfway between two of them to the even one. What a pattern writes is the
rounded number, without a fraction. So it is the number itself if and only if that is such
a multiple. -/
theorem whole_number_kept_iff (v : Int64) (pattern : String) :
    (Denotes (formatDecimal (.int v) pattern) v.toInt ↔
      (2 : ℤ) ^ (v.toInt.natAbs.log2 - 52) ∣ v.toInt) ∧
    ∃ q : ℤ, IsRounding q (v.toInt / 2 ^ (v.toInt.natAbs.log2 - 52)) ∧
      Denotes (formatDecimal (.int v) pattern) (q * 2 ^ (v.toInt.natAbs.log2 - 52)) := by
  obtain ⟨q, hrounding, hvalue⟩ := Decimal.exists_exactValue_ofInt v
  rw [excess] at hrounding hvalue
  have hfinite : (Number.int v).IsFinite := trivial
  have hwritten : Denotes (formatDecimal (.int v) pattern)
      (q * 2 ^ (v.toInt.natAbs.log2 - 52)) := by
    apply denotes_formatDecimal hfinite
    rw [Number.toFloat, hvalue]
    push_cast
    rfl
  refine ⟨⟨fun hkept => ?_, ?_⟩, q, hrounding, hwritten⟩
  · exact ⟨q, (hkept.unique hwritten).trans (mul_comm _ _)⟩
  · rintro ⟨m, hm⟩
    have hmultiple : v.toInt = m * 2 ^ (v.toInt.natAbs.log2 - 52) := hm.trans (mul_comm _ _)
    have hexact : (v.toInt : ℚ) / 2 ^ (v.toInt.natAbs.log2 - 52) = m := by
      rw [div_eq_iff (by positivity)]
      exact_mod_cast hmultiple
    rw [hexact] at hrounding
    rwa [hrounding.eq_of_intCast, ← hmultiple] at hwritten

/-- The first whole number that is not kept. -/
theorem odd_number_lost :
    formatDecimal (.int 9007199254740993) "0" = "9007199254740992" ∧
      ¬ Denotes (formatDecimal (.int 9007199254740993) "0") 9007199254740993 := by
  have htext : formatDecimal (.int 9007199254740993) "0" = "9007199254740992" := by
    decide +kernel
  have hwritten : Denotes "9007199254740992" 9007199254740992 := by
    refine ⟨⟨false, "9007199254740992".toList, []⟩, by decide, ?_⟩
    exact ⟨by decide, ⟨0, by decide⟩, ⟨0, rfl⟩, by decide⟩
  refine ⟨htext, fun hkept => ?_⟩
  rw [htext] at hkept
  exact absurd (hkept.unique hwritten) (by decide)

end PageServer.Template
