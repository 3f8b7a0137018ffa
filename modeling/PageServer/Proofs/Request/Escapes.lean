import PageServer.Proofs.Failures
import PageServer.Request.Query

/-!
# Percent escapes

An escape writes a byte as its two hexadecimal digits after a percent sign. A
component of a target is decoded exactly if every percent sign in it has its two
digits and the bytes that it stands for are those of a text, and it is decoded to
this text.
-/

namespace PageServer.Request

open Text (hexValue? isHexDigit utf8Bytes ofUtf8?)

/-! ### The escape of a byte -/

/-- A hexadecimal digit in either case. -/
def IsDigitOf (n : Nat) (c : Char) : Prop :=
  c = n.digitChar ∨ c = n.digitChar.toUpper

instance (n : Nat) (c : Char) : Decidable (IsDigitOf n c) :=
  inferInstanceAs (Decidable (_ ∨ _))

theorem hexValue?_eq_some_iff {c : Char} {n : Nat} :
    hexValue? c = some n ↔ n < 16 ∧ IsDigitOf n c := by
  constructor
  · intro h
    have hle (a b : Char) : a ≤ b ↔ a.toNat ≤ b.toNat := Iff.rfl
    have hsmall : c.toNat < 103 := by
      simp only [hexValue?, Char.isDigit_iff_toNat, hle] at h
      grind
    have hall : ∀ k < 103, ∀ m ∈ hexValue? (Char.ofNat k), m < 16 ∧ IsDigitOf m (Char.ofNat k) := by
      decide
    have hc := hall c.toNat hsmall
    rw [Char.ofNat_toNat] at hc
    exact hc n h
  · have hall : ∀ m < 16, hexValue? m.digitChar = some m ∧
        hexValue? m.digitChar.toUpper = some m := by decide
    rintro ⟨hn, rfl | rfl⟩
    · exact (hall n hn).1
    · exact (hall n hn).2

/-- The digits that a byte is written in. -/
structure IsEscape (b : UInt8) (high low : Char) : Prop where
  high : IsDigitOf (b.toNat / 16) high
  low : IsDigitOf (b.toNat % 16) low

namespace IsEscape

variable {b : UInt8} {high low : Char}

theorem hexValue?_high (h : IsEscape b high low) : hexValue? high = some (b.toNat / 16) := by
  have hb := b.toNat_lt
  exact hexValue?_eq_some_iff.mpr ⟨by omega, h.high⟩

theorem hexValue?_low (h : IsEscape b high low) : hexValue? low = some (b.toNat % 16) :=
  hexValue?_eq_some_iff.mpr ⟨Nat.mod_lt _ (by decide), h.low⟩

theorem of_hexValue? {x y : Nat} (hx : hexValue? high = some x) (hy : hexValue? low = some y) :
    IsEscape (UInt8.ofNat (16 * x + y)) high low := by
  obtain ⟨hx, hhigh⟩ := hexValue?_eq_some_iff.mp hx
  obtain ⟨hy, hlow⟩ := hexValue?_eq_some_iff.mp hy
  have hlt : 16 * x + y < 256 := by omega
  have hbyte : (UInt8.ofNat (16 * x + y)).toNat = 16 * x + y := UInt8.toNat_ofNat_of_lt' hlt
  have hdiv : (16 * x + y) / 16 = x := by omega
  have hmod : (16 * x + y) % 16 = y := by omega
  constructor
  · rwa [hbyte, hdiv]
  · rwa [hbyte, hmod]

theorem byte_eq (b : UInt8) : UInt8.ofNat (16 * (b.toNat / 16) + b.toNat % 16) = b := by
  rw [Nat.div_add_mod, UInt8.ofNat_toNat]

/-- No digit is a character without a value. -/
theorem ne_of_hexValue? {c : Char} (h : IsEscape b high low) (hc : hexValue? c = none) :
    high ≠ c ∧ low ≠ c := by
  constructor
  · rintro rfl
    cases h.hexValue?_high.symm.trans hc
  · rintro rfl
    cases h.hexValue?_low.symm.trans hc

end IsEscape

/-! ### What a component stands for -/

/-- A plus sign may be read as a space. -/
def reading (plusIsSpace : Bool) (c : Char) : Char :=
  if plusIsSpace && c == '+' then ' ' else c

/-- The bytes that a component stands for, of which escapes give one each and any
other character its encoding. -/
inductive StandsFor (plusIsSpace : Bool) : List Char → Bytes → Prop
  | nil : StandsFor plusIsSpace [] []
  | escape {b : UInt8} {high low : Char} {cs : List Char} {bytes : Bytes}
      (hb : IsEscape b high low) (h : StandsFor plusIsSpace cs bytes) :
      StandsFor plusIsSpace ('%' :: high :: low :: cs) (b :: bytes)
  | plain {c : Char} {cs : List Char} {bytes : Bytes} (hc : c ≠ '%')
      (h : StandsFor plusIsSpace cs bytes) :
      StandsFor plusIsSpace (c :: cs) (String.utf8EncodeChar (reading plusIsSpace c) ++ bytes)

def BeginsWithDigits : List Char → Prop
  | high :: low :: _ => isHexDigit high = true ∧ isHexDigit low = true
  | _ => False

/-- Every percent sign has its two digits. -/
def Complete (cs : List Char) : Prop :=
  ∀ after, '%' :: after <:+ cs → BeginsWithDigits after

theorem escapedBytes?_eq_some_iff {cs : List Char} {bytes : Bytes} :
    escapedBytes? cs = some bytes ↔ StandsFor false cs bytes := by
  constructor
  · intro h
    fun_induction escapedBytes? cs generalizing bytes with
    | case1 =>
      obtain rfl := Option.some.inj h
      exact .nil
    | case2 high low rest x y hy hx ih =>
      obtain ⟨rest', hrest, rfl⟩ := Option.map_eq_some_iff.mp h
      exact .escape (.of_hexValue? hx hy) (ih hrest)
    | case3 => cases h
    | case4 => cases h
    | case5 c rest _ hc ih =>
      obtain ⟨rest', hrest, rfl⟩ := Option.map_eq_some_iff.mp h
      exact .plain hc (ih hrest)
  · intro h
    induction h with
    | nil => rfl
    | escape hb h ih =>
      simp only [escapedBytes?, hb.hexValue?_high, hb.hexValue?_low, ih, Option.map_some,
        IsEscape.byte_eq]
    | plain hc h ih =>
      simp [escapedBytes?, hc, ih, reading]

theorem reading_eq_iff {plusIsSpace : Bool} {c d : Char} (hspace : d ≠ ' ') (hplus : d ≠ '+') :
    reading plusIsSpace c = d ↔ c = d := by
  rw [reading]
  split
  · next h =>
    obtain ⟨-, hc⟩ := Bool.and_eq_true_iff.mp h
    obtain rfl := beq_iff_eq.mp hc
    exact iff_of_false hspace.symm hplus.symm
  · exact Iff.rfl

@[simp] theorem reading_false (c : Char) : reading false c = c := rfl

theorem reading_percent_iff {plusIsSpace : Bool} {c : Char} :
    reading plusIsSpace c = '%' ↔ c = '%' :=
  reading_eq_iff (by decide) (by decide)

theorem IsEscape.reading_iff {plusIsSpace : Bool} {b : UInt8} {high low : Char}
    (h : IsEscape b high low) {c d : Char} :
    reading plusIsSpace c = high ∧ reading plusIsSpace d = low ↔ c = high ∧ d = low := by
  have hspace := h.ne_of_hexValue? (c := ' ') (by decide)
  have hplus := h.ne_of_hexValue? (c := '+') (by decide)
  rw [reading_eq_iff hspace.1 hplus.1, reading_eq_iff hspace.2 hplus.2]

namespace StandsFor

variable {plusIsSpace : Bool} {cs : List Char} {bytes : Bytes}

/-- Plus signs may be replaced before the escapes are read, for no escape has one. -/
theorem map_reading_iff : StandsFor false (cs.map (reading plusIsSpace)) bytes ↔
    StandsFor plusIsSpace cs bytes := by
  constructor
  · intro h
    generalize hds : cs.map (reading plusIsSpace) = ds at h
    induction h generalizing cs with
    | nil =>
      obtain rfl := List.map_eq_nil_iff.mp hds
      exact .nil
    | escape hb h ih =>
      obtain ⟨c, digits, rfl, hc, hdigits⟩ := List.map_eq_cons_iff.mp hds
      obtain ⟨high, digit, rfl, hhigh, hdigit⟩ := List.map_eq_cons_iff.mp hdigits
      obtain ⟨low, tail, rfl, hlow, htail⟩ := List.map_eq_cons_iff.mp hdigit
      obtain rfl := reading_percent_iff.mp hc
      obtain ⟨rfl, rfl⟩ := hb.reading_iff.mp ⟨hhigh, hlow⟩
      exact .escape hb (ih htail)
    | plain hc h ih =>
      obtain ⟨c, tail, rfl, rfl, htail⟩ := List.map_eq_cons_iff.mp hds
      exact .plain (mt reading_percent_iff.mpr hc) (ih htail)
  · intro h
    induction h with
    | nil => exact .nil
    | @escape b high low cs bytes hb h ih =>
      obtain ⟨hhigh, hlow⟩ := hb.reading_iff.mpr ⟨rfl, rfl⟩
      rw [List.map_cons, List.map_cons, List.map_cons, reading_percent_iff.mpr rfl, hhigh, hlow]
      exact .escape hb ih
    | plain hc h ih => exact .plain (mt reading_percent_iff.mp hc) ih

theorem unique (h : StandsFor plusIsSpace cs bytes) {others : Bytes}
    (hothers : StandsFor plusIsSpace cs others) : bytes = others := by
  have hread := escapedBytes?_eq_some_iff.mpr (map_reading_iff.mpr h)
  have hreadOthers := escapedBytes?_eq_some_iff.mpr (map_reading_iff.mpr hothers)
  exact Option.some.inj (hread.symm.trans hreadOthers)

theorem complete (h : StandsFor plusIsSpace cs bytes) : Complete cs := by
  induction h with
  | nil =>
    intro after hafter
    cases List.suffix_nil.mp hafter
  | @escape b high low cs bytes hb h ih =>
    obtain ⟨hhigh, hlow⟩ := hb.ne_of_hexValue? (c := '%') (by decide)
    intro after hafter
    rcases List.suffix_cons_iff.mp hafter with hhere | hafter
    · obtain ⟨-, rfl⟩ := List.cons.inj hhere
      constructor
      · exact Text.isHexDigit_iff_hexValue?.mpr (hb.hexValue?_high ▸ rfl)
      · exact Text.isHexDigit_iff_hexValue?.mpr (hb.hexValue?_low ▸ rfl)
    · rcases List.suffix_cons_iff.mp hafter with hhere | hafter
      · exact absurd (List.cons.inj hhere).1.symm hhigh
      · rcases List.suffix_cons_iff.mp hafter with hhere | hafter
        · exact absurd (List.cons.inj hhere).1.symm hlow
        · exact ih after hafter
  | plain hc h ih =>
    intro after hafter
    rcases List.suffix_cons_iff.mp hafter with hhere | hafter
    · exact absurd (List.cons.inj hhere).1.symm hc
    · exact ih after hafter

end StandsFor

theorem Complete.of_suffix {cs ds : List Char} (h : Complete cs) (hds : ds <:+ cs) : Complete ds :=
  fun after hafter => h after (hafter.trans hds)

theorem Complete.exists_standsFor (plusIsSpace : Bool) {cs : List Char} (h : Complete cs) :
    ∃ bytes, StandsFor plusIsSpace cs bytes := by
  fun_induction escapedBytes? cs with
  | case1 => exact ⟨[], .nil⟩
  | case2 high low rest x y hy hx ih =>
    have hrest : Complete rest := h.of_suffix (List.suffix_append ['%', high, low] rest)
    obtain ⟨bytes, hbytes⟩ := ih hrest
    exact ⟨_, .escape (.of_hexValue? hx hy) hbytes⟩
  | case3 high low rest hno =>
    obtain ⟨hhigh, hlow⟩ := h (high :: low :: rest) List.suffix_rfl
    obtain ⟨x, hx⟩ := Option.isSome_iff_exists.mp (Text.isHexDigit_iff_hexValue?.mp hhigh)
    obtain ⟨y, hy⟩ := Option.isSome_iff_exists.mp (Text.isHexDigit_iff_hexValue?.mp hlow)
    exact (hno x y hx hy).elim
  | case4 rest hno =>
    have hdigits := h rest List.suffix_rfl
    rcases rest with _ | ⟨high, _ | ⟨low, rest⟩⟩
    · exact hdigits.elim
    · exact hdigits.elim
    · exact (hno high low rest rfl rfl).elim
  | case5 c rest _ hc ih =>
    obtain ⟨bytes, hbytes⟩ := ih (h.of_suffix (List.suffix_cons c rest))
    exact ⟨_, .plain hc hbytes⟩

/-! ### Decoding -/

theorem toList_spacesForPlus (text : String) :
    (spacesForPlus text).toList = text.toList.map (reading true) := by
  rw [spacesForPlus, String.toList_ofList]
  apply List.map_congr_left
  intro c _
  simp [reading]

theorem bind_ofUtf8?_eq_some_iff {plusIsSpace : Bool} {cs : List Char} {s : String} :
    (escapedBytes? (cs.map (reading plusIsSpace))).bind ofUtf8? = some s ↔
      StandsFor plusIsSpace cs (utf8Bytes s) := by
  rw [Option.bind_eq_some_iff]
  simp only [escapedBytes?_eq_some_iff, StandsFor.map_reading_iff, Text.ofUtf8?_eq_some_iff]
  constructor
  · rintro ⟨bytes, h, rfl⟩
    exact h
  · intro h
    exact ⟨utf8Bytes s, h, rfl⟩

theorem decode_eq_ok_iff {plusIsSpace : Bool} {text s : String} :
    decode plusIsSpace text = .ok s ↔ StandsFor plusIsSpace text.toList (utf8Bytes s) := by
  have htext : (if plusIsSpace then spacesForPlus text else text).toList =
      text.toList.map (reading plusIsSpace) := by
    cases plusIsSpace with
    | false => exact (List.map_id'' reading_false text.toList).symm
    | true => exact toList_spacesForPlus text
  rw [decode]
  cases hscan : escapedBytes? text.toList with
  | none =>
    apply iff_of_false nofun
    intro h
    obtain ⟨bytes, hplain⟩ := h.complete.exists_standsFor false
    cases hscan.symm.trans (escapedBytes?_eq_some_iff.mpr hplain)
  | some _ =>
    rw [← bind_ofUtf8?_eq_some_iff]
    simp only [htext]
    split
    · next h => simp [h]
    · next h => simp [h]

/-- What is wrong with a component: a percent sign lacks its digits, or the bytes
are those of no text. -/
inductive ComponentFault (plusIsSpace : Bool) (cs : List Char) : Prop
  | incomplete {after : List Char} (hafter : '%' :: after <:+ cs) (h : ¬ BeginsWithDigits after)
  | notText {bytes : Bytes} (h : StandsFor plusIsSpace cs bytes) (hbytes : ∀ s, utf8Bytes s ≠ bytes)

theorem decode_exists_error_iff {plusIsSpace : Bool} {text : String} :
    (∃ e, decode plusIsSpace text = .error e) ↔ ComponentFault plusIsSpace text.toList := by
  rw [exists_error_iff]
  constructor
  · intro h
    by_cases hcomplete : Complete text.toList
    · obtain ⟨bytes, hbytes⟩ := hcomplete.exists_standsFor plusIsSpace
      apply ComponentFault.notText hbytes
      rintro s rfl
      exact h s (decode_eq_ok_iff.mpr hbytes)
    · obtain ⟨after, hafter⟩ := Classical.not_forall.mp hcomplete
      obtain ⟨hsuffix, hdigits⟩ := Classical.not_imp.mp hafter
      exact .incomplete hsuffix hdigits
  · intro h s hs
    have hstands := decode_eq_ok_iff.mp hs
    cases h with
    | incomplete hafter h => exact h (hstands.complete _ hafter)
    | notText h hbytes => exact hbytes s (hstands.unique h)

end PageServer.Request
