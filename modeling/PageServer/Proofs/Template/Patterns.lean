import PageServer.Proofs.Decimal.Fixed
import PageServer.Proofs.Template.Steps
import PageServer.Template.Pattern

/-!
# Numerals of patterns

Whatever a pattern is, a finite number is written by it as a numeral with as many
digits before and after the point as the pattern allows, and the numeral has the
value of the number rounded to the most places that the pattern has.
-/

namespace PageServer.Template

open Decimal (exactValue ofDigits zeros fixed IsFixed IsRounding)

/-! ### Signs -/

namespace Number

theorem isNegative_double_iff {x : Float} (h : x.isFinite = true) :
    (double x).isNegative = true ↔ exactValue x < 0 := by
  obtain ⟨s, hx⟩ | ⟨s, m, e, hm, hx⟩ := Decimal.unpack_of_isFinite h
  · rw [Decimal.exactValue_of_zero hx, isNegative_double, hx, unpack_zero]
    cases s <;> exact iff_of_false Bool.false_ne_true (lt_irrefl 0)
  · have hpos := Decimal.mul_zpow_pos hm e
    have hheading := heading_of_finite hx
    rw [exactValue, hx, Decimal.valueOfUnpacked]
    cases hnegative : (double x).isNegative with
    | true =>
      rw [heading, hnegative] at hheading
      subst hheading
      simpa using hpos
    | false =>
      rw [heading, hnegative] at hheading
      subst hheading
      simpa using hpos.le

theorem isNegative_iff {n : Number} (h : n.IsFinite) :
    n.isNegative = true ↔ exactValue n.toFloat < 0 := by
  cases n with
  | double x => exact isNegative_double_iff h
  | int v =>
    by_cases hzero : v = 0
    · subst hzero
      have hfloat : (int 0).toFloat = 0 := by decide +kernel
      rw [hfloat, Decimal.exactValue_of_zero unpack_zero]
      exact iff_of_false Bool.false_ne_true (lt_irrefl 0)
    · have hfinite : (int v).IsFinite := trivial
      have hpos := heading_mul_pos hfinite (beq_false_of_ne hzero)
      rw [heading] at hpos
      cases hnegative : (int v).isNegative with
      | true =>
        rw [hnegative] at hpos
        simpa using hpos
      | false =>
        rw [hnegative] at hpos
        simpa using hpos.le

end Number

/-! ### Zeros -/

namespace Pattern

theorem exists_dropEndWhile (cs : List Char) :
    ∃ j, cs = Text.dropEndWhile (· == '0') cs ++ zeros j ∧
      (Text.dropEndWhile (· == '0') cs).getLast? ≠ some '0' := by
  induction cs using List.reverseRecOn with
  | nil => exact ⟨0, rfl, nofun⟩
  | append_singleton cs c ih =>
    rw [Text.dropEndWhile_concat]
    split
    · next hc =>
      obtain ⟨j, hcs, hlast⟩ := ih
      have hzero : zeros (j + 1) = zeros j ++ [c] := by
        rw [zeros, zeros, List.replicate_succ', eq_of_beq hc]
      refine ⟨j + 1, ?_, hlast⟩
      rw [hzero, ← List.append_assoc, ← hcs]
    · next hc =>
      refine ⟨0, (List.append_nil _).symm, ?_⟩
      rw [List.getLast?_concat]
      rintro hlast
      exact hc (beq_iff_eq.mpr (Option.some.inj hlast))

/-- Trimming takes zeros away, and as many as it may. -/
structure IsTrimmed (least : ℕ) (ds places : List Char) : Prop where
  dropped : ∃ j, ds = places ++ zeros j
  enough : least ≤ places.length
  last : least < places.length → places.getLast? ≠ some '0'

theorem isTrimmed_trimZeros {least : ℕ} {ds : List Char} (h : least ≤ ds.length) :
    IsTrimmed least ds (trimZeros least ds) := by
  obtain ⟨j, hrest, hlast⟩ := exists_dropEndWhile (ds.drop least)
  have hkept : (ds.take least).length = least := List.length_take_of_le h
  constructor
  · refine ⟨j, ?_⟩
    rw [trimZeros, List.append_assoc, ← hrest, List.take_append_drop]
  · rw [trimZeros, List.length_append, hkept]
    omega
  · intro hlong
    have hne : Text.dropEndWhile (· == '0') (ds.drop least) ≠ [] := by
      intro hnil
      rw [trimZeros, hnil, List.append_nil, hkept] at hlong
      omega
    rw [trimZeros, List.getLast?_append_of_ne_nil _ hne]
    exact hlast

theorem ofDigits_of_all_zero {ds : List Char} (h : ∀ c ∈ ds, c = '0') : ofDigits ds = 0 := by
  have hzeros := Decimal.ofDigits_zeros_append ds.length []
  rw [List.append_nil] at hzeros
  rw [List.eq_replicate_of_mem h]
  exact hzeros

end Pattern

/-! ### Numerals -/

/-- A sign, and digits before and after a point. -/
structure Numeral where
  negative : Bool
  whole : List Char
  places : List Char
  deriving DecidableEq, Repr

namespace Numeral

def chars (d : Numeral) : List Char :=
  (if d.negative then ['-'] else []) ++ d.whole ++ if d.places = [] then [] else '.' :: d.places

/-- The number that a numeral denotes. -/
def value (d : Numeral) : ℚ :=
  (if d.negative then -1 else 1) * (ofDigits (d.whole ++ d.places) / 10 ^ d.places.length)

/-- The numeral has as many digits as the pattern has it, without needless zeros. -/
structure Follows (d : Numeral) (p : Pattern) : Prop where
  isDigit : ∀ c ∈ d.whole ++ d.places, c.isDigit = true
  minPlaces : p.minPlaces ≤ d.places.length
  maxPlaces : d.places.length ≤ p.maxPlaces
  last : p.minPlaces < d.places.length → d.places.getLast? ≠ some '0'
  minWhole : p.minWhole ≤ d.whole.length
  head : max p.minWhole 1 < d.whole.length → d.whole.head? ≠ some '0'
  whole_nil : d.whole = [] → p.minWhole = 0 ∧ d.places ≠ []

theorem Follows.chars_ne_nil {d : Numeral} {p : Pattern} (h : d.Follows p) : d.chars ≠ [] := by
  intro hnil
  rw [chars, List.append_eq_nil_iff, List.append_eq_nil_iff] at hnil
  have hplaces := (h.whole_nil hnil.1.2).2
  rw [if_neg hplaces] at hnil
  cases hnil.2

end Numeral

namespace Pattern

/-- The digits before the point, filled up with zeros; a single zero may be left out
before other digits. -/
def wholeOf (p : Pattern) (whole places : List Char) : List Char :=
  let padded := zeros (p.minWhole - whole.length) ++ whole
  if p.minWhole = 0 ∧ padded = ['0'] ∧ places ≠ [] then [] else padded

/-- What a pattern makes of the digits of a number. -/
def numeral (p : Pattern) (negative : Bool) (whole places : List Char) : Numeral :=
  let kept := trimZeros p.minPlaces places
  let front := p.wholeOf whole kept
  ⟨negative && !(front ++ kept).all (· == '0'), front, kept⟩

/-- Of a numeral that has digits nothing is replaced. -/
theorem assemble_eq {negative : Bool} {whole places : List Char} (h : whole = [] → places ≠ []) :
    assemble negative whole places =
      Numeral.chars ⟨negative && !(whole ++ places).all (· == '0'), whole, places⟩ := by
  have hout (sign : List Char) :
      sign ++ whole ++ (if places = [] then [] else '.' :: places) ≠ [] := by
    intro hnil
    rw [List.append_eq_nil_iff, List.append_eq_nil_iff] at hnil
    rw [if_neg (h hnil.1.2)] at hnil
    cases hnil.2
  rw [assemble, Numeral.chars]
  simp only [List.isEmpty_iff, hout, if_false]

theorem wholeOf_cases (p : Pattern) (whole places : List Char) :
    p.wholeOf whole places = zeros (p.minWhole - whole.length) ++ whole ∨
      p.wholeOf whole places = [] ∧ p.minWhole = 0 ∧ places ≠ [] := by
  rw [wholeOf]
  split
  · next hleft => exact .inr ⟨rfl, hleft.1, hleft.2.2⟩
  · exact .inl rfl

theorem wholeOf_eq_nil {p : Pattern} {whole places : List Char} (hwhole : whole ≠ [])
    (h : p.wholeOf whole places = []) : p.minWhole = 0 ∧ places ≠ [] := by
  rcases p.wholeOf_cases whole places with hpadded | ⟨-, hleft⟩
  · rw [hpadded] at h
    exact absurd (List.append_eq_nil_iff.mp h).2 hwhole
  · exact hleft

theorem format_eq {p : Pattern} {n : Number} (h : (fixed n.toFloat p.maxPlaces).1 ≠ []) :
    p.format n = (p.numeral (n.toFloat < 0) (fixed n.toFloat p.maxPlaces).1
      (fixed n.toFloat p.maxPlaces).2).chars := by
  rw [format, numeral, ← assemble_eq fun hnil => (wholeOf_eq_nil h hnil).2, wholeOf]
  simp only [Bool.and_eq_true, decide_eq_true_eq, beq_iff_eq, Bool.not_eq_true',
    List.isEmpty_eq_false_iff, and_assoc]

section Follows

variable {p : Pattern} {n : ℕ} {negative : Bool} {whole places : List Char}

theorem isDigit_wholeOf (h : ∀ c ∈ whole, c.isDigit = true) :
    ∀ c ∈ p.wholeOf whole places, c.isDigit = true := by
  rcases p.wholeOf_cases whole places with hpadded | ⟨hnil, -⟩
  · rw [hpadded]
    exact List.forall_mem_append.mpr ⟨fun _ => Decimal.isDigit_of_mem_zeros, h⟩
  · rw [hnil]
    exact fun c hc => absurd hc List.not_mem_nil

theorem minWhole_le_wholeOf (p : Pattern) (whole places : List Char) :
    p.minWhole ≤ (p.wholeOf whole places).length := by
  rcases p.wholeOf_cases whole places with hpadded | ⟨-, hzero, -⟩
  · rw [hpadded, List.length_append, zeros, List.length_replicate]
    omega
  · rw [hzero]
    exact Nat.zero_le _

/-- Where there are more digits than are asked for, none of them was filled in. -/
theorem head_wholeOf (h : 1 < whole.length → whole.head? ≠ some '0')
    (hlong : max p.minWhole 1 < (p.wholeOf whole places).length) :
    (p.wholeOf whole places).head? ≠ some '0' := by
  rcases p.wholeOf_cases whole places with hpadded | ⟨hnil, -⟩
  · rw [hpadded, List.length_append, zeros, List.length_replicate] at hlong
    have hnone : p.minWhole - whole.length = 0 := by omega
    rw [hpadded, hnone]
    exact h (by omega)
  · rw [hnil, List.head?_nil]
    exact (Option.some_ne_none _).symm

theorem follows_numeral (h : IsFixed n p.maxPlaces whole places)
    (hp : p.minPlaces ≤ p.maxPlaces) : (p.numeral negative whole places).Follows p := by
  have hlength : p.minPlaces ≤ places.length := h.length ▸ hp
  have htrimmed := isTrimmed_trimZeros hlength
  obtain ⟨j, hdropped⟩ := htrimmed.dropped
  obtain ⟨hwhole, hplaces⟩ := List.forall_mem_append.mp h.isDigit
  constructor
  · refine List.forall_mem_append.mpr ⟨isDigit_wholeOf hwhole, ?_⟩
    intro c hc
    apply hplaces
    rw [hdropped]
    exact List.mem_append_left _ hc
  · exact htrimmed.enough
  · have hsum := congrArg List.length hdropped
    rw [h.length, List.length_append] at hsum
    exact Nat.le.intro hsum.symm
  · exact htrimmed.last
  · exact p.minWhole_le_wholeOf whole _
  · exact head_wholeOf h.leading
  · exact wholeOf_eq_nil h.ne_nil

theorem ofDigits_wholeOf (p : Pattern) (whole places rest : List Char) :
    ofDigits (p.wholeOf whole places ++ rest) = ofDigits (whole ++ rest) := by
  have hpadded : ofDigits (zeros (p.minWhole - whole.length) ++ whole ++ rest) =
      ofDigits (whole ++ rest) := by
    rw [List.append_assoc, Decimal.ofDigits_zeros_append]
  rw [wholeOf]
  split
  · next hleft =>
    rw [← hpadded, hleft.2.1]
    exact (Decimal.ofDigits_zeros_append 1 rest).symm
  · exact hpadded

/-- A numeral without its sign has the value of the units. -/
theorem value_numeral (negative : Bool) (h : IsFixed n p.maxPlaces whole places)
    (hp : p.minPlaces ≤ p.maxPlaces) :
    (ofDigits ((p.numeral negative whole places).whole ++ (p.numeral negative whole places).places)
        : ℚ) / 10 ^ (p.numeral negative whole places).places.length = n / 10 ^ p.maxPlaces := by
  let kept := trimZeros p.minPlaces places
  have henough : p.minPlaces ≤ places.length := h.length ▸ hp
  obtain ⟨j, hdropped⟩ := (isTrimmed_trimZeros henough).dropped
  change places = kept ++ zeros j at hdropped
  have hlength : p.maxPlaces = kept.length + j := by
    rw [← h.length, hdropped, List.length_append, zeros, List.length_replicate]
  have hunits : n = 10 ^ j * ofDigits (whole ++ kept) := by
    rw [← h.ofDigits, hdropped, ← List.append_assoc, Decimal.ofDigits_append_zeros]
  change (ofDigits (p.wholeOf whole kept ++ kept) : ℚ) / 10 ^ kept.length = _
  rw [ofDigits_wholeOf, hunits, hlength, pow_add]
  push_cast
  field_simp

/-- A sign is written just for a negative number of which a digit is not zero. -/
theorem negative_numeral_iff :
    (p.numeral negative whole places).negative = true ↔ negative = true ∧
      ∃ c ∈ (p.numeral negative whole places).whole ++ (p.numeral negative whole places).places,
        c ≠ '0' := by
  rw [numeral]
  simp only [Bool.and_eq_true, Bool.not_eq_true', List.all_eq_false, beq_iff_eq, ne_eq]

theorem value_signed (h : IsFixed n p.maxPlaces whole places) (hp : p.minPlaces ≤ p.maxPlaces) :
    (p.numeral negative whole places).value =
      (if negative then -1 else 1) * (n / 10 ^ p.maxPlaces) := by
  have hvalue := value_numeral negative h hp
  rw [Numeral.value, hvalue]
  by_cases hsigned : (p.numeral negative whole places).negative = negative
  · rw [hsigned]
  · -- the sign is only missing where it does not matter
    have hall : ∀ c ∈ (p.numeral negative whole places).whole ++
        (p.numeral negative whole places).places, c = '0' := by
      by_contra hnot
      apply hsigned
      rw [Bool.eq_iff_iff, negative_numeral_iff]
      apply and_iff_left
      simpa only [not_forall, exists_prop] using hnot
    rw [ofDigits_of_all_zero hall, Nat.cast_zero, zero_div] at hvalue
    rw [← hvalue, mul_zero, mul_zero]

end Follows

theorem getD_cutBy?_eq (cs : List Char) :
    (Text.cutBy? (· == '.') cs).getD (cs, []) =
      (cs.takeWhile (· != '.'), (cs.dropWhile (· != '.')).drop 1) := by
  induction cs with
  | nil => rfl
  | cons c cs ih =>
    by_cases hc : c = '.'
    · subst hc
      rfl
    · have hkept : (c != '.') = true := bne_iff_ne.mpr hc
      rw [Text.cutBy?, if_neg (mt beq_iff_eq.mp hc)]
      simp only [List.takeWhile_cons, List.dropWhile_cons, hkept, if_true]
      cases hcut : Text.cutBy? (· == '.') cs with
      | none =>
        rw [hcut, Option.getD_none, Prod.mk.injEq] at ih
        rw [Option.map_none, Option.getD_none, ← ih.1, ← ih.2]
      | some r =>
        rw [hcut, Option.getD_some] at ih
        rw [Option.map_some, Option.getD_some, ih]

/-- The digits that a pattern asks for. -/
theorem ofChars_eq (cs : List Char) :
    ofChars cs = ⟨(cs.takeWhile (· != '.')).count '0',
      ((cs.dropWhile (· != '.')).drop 1).count '0',
      ((cs.dropWhile (· != '.')).drop 1).count '0' +
        ((cs.dropWhile (· != '.')).drop 1).count '#'⟩ := by
  rw [ofChars, getD_cutBy?_eq]

end Pattern

/-! ### Formatted numbers -/

theorem toFloat_lt_zero_iff {x : Number} (hx : x.IsFinite) :
    decide (x.toFloat < 0) = true ↔ exactValue x.toFloat < 0 :=
  Number.isNegative_double_iff (Number.isFinite_toFloat hx)

/-- A number rounds as its absolute value does. -/
theorem isRounding_signed {n : ℕ} {v : ℚ} {k : ℕ} (h : IsRounding n (|v| * 10 ^ k)) :
    IsRounding (if v < 0 then -n else n) (v * 10 ^ k) := by
  split
  · next hnegative =>
    have hneg := h.neg
    rwa [abs_of_neg hnegative, neg_mul, neg_neg] at hneg
  · next hnegative => rwa [abs_of_nonneg (not_lt.mp hnegative)] at h

/-- However a pattern is spelled, a finite number is written by it as a numeral and
not as nothing. The zeros before the first point and after it say how many digits
there are at least, the number signs after it how many more there may be; no digit
more is a zero at the end or at the beginning, but for a single one before the point.
The sign is there just for a negative number of which a digit is left, and the numeral
denotes the double rounded to the most places, a half to the even neighbour. -/
theorem formatDecimal_numeral {x : Number} (hx : x.IsFinite) (pattern : String) :
    let front := pattern.toList.takeWhile (· != '.')
    let back := (pattern.toList.dropWhile (· != '.')).drop 1
    let p : Pattern := ⟨front.count '0', back.count '0', back.count '0' + back.count '#'⟩
    formatDecimal x pattern ≠ "" ∧
    ∃ d : Numeral, (formatDecimal x pattern).toList = d.chars ∧ d.Follows p ∧
      (d.negative = true ↔ x.isNegative = true ∧ ∃ c ∈ d.whole ++ d.places, c ≠ '0') ∧
      ∃ n : ℤ, IsRounding n (exactValue x.toFloat * 10 ^ p.maxPlaces) ∧
        d.value = n / 10 ^ p.maxPlaces := by
  intro front back p
  obtain ⟨n, hfixed, hrounding⟩ :=
    Decimal.fixed_of_isFinite (Number.isFinite_toFloat hx) p.maxPlaces
  let d := p.numeral (x.toFloat < 0) (fixed x.toFloat p.maxPlaces).1 (fixed x.toFloat p.maxPlaces).2
  have hp : p.minPlaces ≤ p.maxPlaces := Nat.le_add_right _ _
  have hchars : (formatDecimal x pattern).toList = d.chars := by
    rw [formatDecimal, String.toList_ofList, Pattern.ofChars_eq]
    exact Pattern.format_eq hfixed.ne_nil
  have hfollows : d.Follows p := Pattern.follows_numeral hfixed hp
  have hvalue : d.value = _ := Pattern.value_signed hfixed hp
  refine ⟨?_, d, hchars, hfollows, ?_, _, isRounding_signed hrounding, ?_⟩
  · intro hempty
    rw [hempty] at hchars
    exact hfollows.chars_ne_nil hchars.symm
  · rw [Number.isNegative_iff hx, ← toFloat_lt_zero_iff hx]
    exact Pattern.negative_numeral_iff
  · rw [hvalue]
    simp only [toFloat_lt_zero_iff hx]
    split
    · push_cast
      ring
    · push_cast
      ring

theorem carried_number_trimmed :
    let x : Number := .double (-9.996)
    let p : Pattern := ⟨2, 1, 2⟩
    x.IsFinite ∧ formatDecimal x "00.0#.x" = "-10.0" ∧
    ∃ d : Numeral, "-10.0".toList = d.chars ∧ d.Follows p ∧
      (d.negative = true ↔ x.isNegative = true ∧ ∃ c ∈ d.whole ++ d.places, c ≠ '0') ∧
      ∃ n : ℤ, IsRounding n (exactValue (-9.996) * 10 ^ 2) ∧ d.value = n / 10 ^ 2 := by
  intro x p
  have hfinite : x.IsFinite := by
    change (-9.996 : Float).isFinite = true
    decide +kernel
  have htext : formatDecimal x "00.0#.x" = "-10.0" := by decide +kernel
  have hpattern : Pattern.mk (("00.0#.x".toList.takeWhile (· != '.')).count '0')
      ((("00.0#.x".toList.dropWhile (· != '.')).drop 1).count '0')
      ((("00.0#.x".toList.dropWhile (· != '.')).drop 1).count '0' +
        (("00.0#.x".toList.dropWhile (· != '.')).drop 1).count '#') = p := by
    decide
  obtain ⟨-, d, hchars, hfollows, hnegative, n, hrounding, hvalue⟩ :=
    formatDecimal_numeral hfinite "00.0#.x"
  rw [htext] at hchars
  rw [hpattern] at hfollows hrounding hvalue
  exact ⟨hfinite, htext, d, hchars, hfollows, hnegative, n, hrounding, hvalue⟩

end PageServer.Template
