import PageServer.Decimal.Notation
import PageServer.Template.Printer
import PageServer.Template.Scanner

/-!
# Pieces as they are scanned

Each piece of a directive, written with its escapes, is read as one token if a
blank or nothing follows it, whatever blanks stand before it. Escaped text is
read up to its end.
-/

namespace PageServer.Template

open Text (isBlank)

/-- A blank or nothing comes next, so that a word ends here. -/
def EndsWord (cs : List Char) : Prop :=
  ∀ c ∈ cs.head?, isBlank c = true

theorem endsWord_cons {c : Char} {cs : List Char} (h : isBlank c = true) : EndsWord (c :: cs) := by
  intro d hd
  obtain rfl : c = d := by simpa using hd
  exact h

theorem isAlpha_iff_toNat {c : Char} :
    c.isAlpha = true ↔ (65 ≤ c.toNat ∧ c.toNat ≤ 90) ∨ (97 ≤ c.toNat ∧ c.toNat ≤ 122) := by
  change (decide (65 ≤ c.val ∧ c.val ≤ 90) || (decide (97 ≤ c.val) && decide (c.val ≤ 122))) =
    true ↔ _
  simp only [Bool.or_eq_true, Bool.and_eq_true, decide_eq_true_iff, UInt32.le_iff_toNat_le]
  rfl

theorem isAlpha_of_isDigit {c : Char} (h : c.isDigit = true) : c.isAlpha = false := by
  rw [Bool.eq_false_iff, ne_eq, isAlpha_iff_toNat]
  rw [Char.isDigit_iff_toNat] at h
  have hnine : '9'.toNat = 57 := rfl
  omega

theorem not_isBlank_of_isNameChar {c : Char} (h : isNameChar c = true) : isBlank c = false := by
  have hkinds : ((c.isAlpha || c.isDigit) || c == '_') = true := h
  simp only [Bool.or_eq_true, isAlpha_iff_toNat, Char.isDigit_iff_toNat, beq_iff_eq] at hkinds
  simp only [isBlank, Text.inRanges, Text.blankRanges]
  simp
  obtain (hletter | hdigit) | rfl := hkinds
  · omega
  · have hzero : '0'.toNat = 48 := rfl
    have hnine : '9'.toNat = 57 := rfl
    omega
  · decide

theorem isNameChar_of_isAlpha {c : Char} (h : c.isAlpha = true) : isNameChar c = true := by
  simp [isNameChar, Char.isAlphanum, h]

theorem isNameChar_of_isDigit {c : Char} (h : c.isDigit = true) : isNameChar c = true := by
  simp [isNameChar, Char.isAlphanum, h]

theorem EndsWord.head_ne {cs : List Char} (h : EndsWord cs) {p : Char → Bool}
    (hp : ∀ c, p c = true → isBlank c = false) : ∀ c ∈ cs.head?, p c = false := by
  intro c hc
  cases hpc : p c with
  | false => rfl
  | true =>
    have hblank := h c hc
    rw [hp c hpc] at hblank
    cases hblank

theorem takeWhile_append_of_head {p : Char → Bool} {cs rest : List Char}
    (hcs : ∀ c ∈ cs, p c = true) (hrest : ∀ c ∈ rest.head?, p c = false) :
    (cs ++ rest).takeWhile p = cs := by
  rw [List.takeWhile_append_of_pos hcs]
  cases rest with
  | nil => simp
  | cons c rest => simp [hrest c rfl]

theorem dropWhile_append_of_head {p : Char → Bool} {cs rest : List Char}
    (hcs : ∀ c ∈ cs, p c = true) (hrest : ∀ c ∈ rest.head?, p c = false) :
    (cs ++ rest).dropWhile p = rest := by
  rw [List.dropWhile_append_of_pos hcs]
  cases rest with
  | nil => rfl
  | cons c rest => simp [hrest c rfl]

/-! ### Blanks -/

theorem Cursor.skip_append (cs rest : List Char) (n : Nat) :
    Cursor.skip ⟨cs ++ rest, n⟩ cs.length = ⟨rest, n + cs.length⟩ := by
  simp [Cursor.skip]

theorem Cursor.skipBlanks_append {blanks : List Char} (h : ∀ c ∈ blanks, isBlank c = true)
    (cs : List Char) (n : Nat) :
    Cursor.skipBlanks ⟨blanks ++ cs, n⟩ = Cursor.skipBlanks ⟨cs, n + blanks.length⟩ := by
  simp [Cursor.skipBlanks, Cursor.skip, List.takeWhile_append_of_pos h, List.drop_append,
    Nat.add_assoc]

theorem Cursor.skipBlanks_cons {c : Char} (h : isBlank c = false) (cs : List Char) (n : Nat) :
    Cursor.skipBlanks ⟨c :: cs, n⟩ = ⟨c :: cs, n⟩ := by
  simp [Cursor.skipBlanks, Cursor.skip, h]

theorem scanDirective_append {blanks : List Char} (h : ∀ c ∈ blanks, isBlank c = true)
    (cs : List Char) (n : Nat) :
    scanDirective ⟨blanks ++ cs, n⟩ = scanDirective ⟨cs, n + blanks.length⟩ := by
  rw [scanDirective, Cursor.skipBlanks_append h]
  rfl

/-! ### Words -/

theorem leadingName_append {cs rest : List Char} (hcs : ∀ c ∈ cs, isNameChar c = true)
    (hrest : EndsWord rest) : leadingName (cs ++ rest) = cs :=
  takeWhile_append_of_head hcs (hrest.head_ne fun _ h => not_isBlank_of_isNameChar h)

theorem scanDirective_name {cs rest : List Char} (hname : isName cs = true)
    (hrest : EndsWord rest) (n : Nat) :
    scanDirective ⟨cs ++ rest, n⟩ = (.ok (nameToken cs), ⟨rest, n + cs.length⟩) := by
  cases cs with
  | nil => cases hname
  | cons c cs =>
    obtain ⟨halpha, htail⟩ : c.isAlpha = true ∧ ∀ d ∈ cs, isNameChar d = true := by
      simpa [isName] using hname
    have hall : ∀ d ∈ c :: cs, isNameChar d = true := by
      intro d hd
      rcases List.mem_cons.mp hd with rfl | hd
      · exact isNameChar_of_isAlpha halpha
      · exact htail d hd
    have hdollar : c ≠ '$' := by
      rintro rfl
      cases halpha
    rw [scanDirective, List.cons_append,
      Cursor.skipBlanks_cons (not_isBlank_of_isNameChar (hall c List.mem_cons_self))]
    simp only [hdollar, decide_false, Bool.false_and, Bool.false_eq_true, if_false, halpha, if_true]
    rw [← List.cons_append, leadingName_append hall hrest, Cursor.skip_append]

theorem scanDirective_function {cs rest : List Char} (hname : isName cs = true)
    (hrest : EndsWord rest) (n : Nat) :
    scanDirective ⟨'@' :: (cs ++ rest), n⟩ =
      (.ok (.function (String.ofList cs)), ⟨rest, n + (1 + cs.length)⟩) := by
  cases cs with
  | nil => cases hname
  | cons c cs =>
    obtain ⟨halpha, htail⟩ : c.isAlpha = true ∧ ∀ d ∈ cs, isNameChar d = true := by
      simpa [isName] using hname
    have hall : ∀ d ∈ c :: cs, isNameChar d = true := by
      intro d hd
      rcases List.mem_cons.mp hd with rfl | hd
      · exact isNameChar_of_isAlpha halpha
      · exact htail d hd
    have hstart : startsWithLetter (c :: cs ++ rest) = true := halpha
    rw [scanDirective, Cursor.skipBlanks_cons (by decide)]
    have hskip := Cursor.skip_append ('@' :: c :: cs) rest n
    rw [List.length_cons, Nat.add_comm] at hskip
    simp only [hstart, leadingName_append hall hrest]
    exact congrArg (Prod.mk _) hskip

/-- A single sign is an operator. A minus sign would begin a number before a
digit. -/
theorem scanDirective_operator {c : Char} {rest : List Char} (hc : c ∈ operators)
    (hrest : EndsWord rest) (n : Nat) :
    scanDirective ⟨c :: rest, n⟩ = (.ok (.operator c), ⟨rest, n + 1⟩) := by
  have hdigit : startsWithDigit rest = false := by
    cases rest with
    | nil => rfl
    | cons d rest =>
      exact hrest.head_ne (fun _ h => not_isBlank_of_isNameChar (isNameChar_of_isDigit h)) d rfl
  have hcases : c = '+' ∨ c = '-' ∨ c = '*' ∨ c = '/' ∨ c = '^' ∨ c = '=' := by
    simpa [operators] using hc
  rw [scanDirective]
  rcases hcases with rfl | rfl | rfl | rfl | rfl | rfl <;>
    rw [Cursor.skipBlanks_cons (by decide)] <;>
    simp [operators, hdigit, Cursor.skip]

theorem scanDirective_close (rest : List Char) (n : Nat) :
    scanDirective ⟨'$' :: '}' :: rest, n⟩ = (.ok .tagClose, ⟨rest, n + 2⟩) := by
  rw [scanDirective, Cursor.skipBlanks_cons (by decide)]
  simp [Cursor.skip]

/-! ### Numbers -/

theorem isBlank_point : isBlank '.' = false := by
  decide

theorem EndsWord.isDigit_head {cs : List Char} (h : EndsWord cs) :
    ∀ c ∈ cs.head?, c.isDigit = false :=
  h.head_ne fun _ hd => not_isBlank_of_isNameChar (isNameChar_of_isDigit hd)

theorem EndsWord.head?_ne_point {cs : List Char} (h : EndsWord cs) : cs.head? ≠ some '.' := by
  intro hhead
  have hblank := h '.' hhead
  rw [isBlank_point] at hblank
  cases hblank

namespace NumberText

/-- What the text of a number is: digits, and digits after a point. -/
structure Valid (t : NumberText) : Prop where
  whole_ne_nil : t.whole ≠ []
  whole : ∀ c ∈ t.whole, c.isDigit = true
  places_ne_nil : t.places ≠ some []
  places : ∀ ps ∈ t.places, ∀ c ∈ ps, c.isDigit = true

/-- What follows the whole digits of a number. -/
def fraction (t : NumberText) : List Char :=
  match t.places with
  | none => []
  | some places => '.' :: places

theorem chars_eq (t : NumberText) :
    t.chars = (if t.negative then ['-'] else []) ++ t.whole ++ t.fraction := by
  obtain ⟨negative, whole, places⟩ := t
  cases places <;> rfl

theorem Valid.fraction_head {t : NumberText} (h : t.Valid) {rest : List Char}
    (hrest : EndsWord rest) : ∀ c ∈ (t.fraction ++ rest).head?, c.isDigit = false := by
  obtain ⟨negative, whole, places⟩ := t
  cases places with
  | none => exact hrest.isDigit_head
  | some ps =>
    intro c hc
    obtain rfl : '.' = c := by simpa [fraction] using hc
    decide

theorem ofChars_unsigned {cs : List Char} (h : cs.head? ≠ some '-') :
    ofChars cs =
      { negative := false
        whole := cs.takeWhile Char.isDigit
        places :=
          let after := cs.dropWhile Char.isDigit
          if after.head? = some '.' && startsWithDigit (after.drop 1) then
            some ((after.drop 1).takeWhile Char.isDigit)
          else none } := by
  simp [ofChars, h]

theorem ofChars_minus (cs : List Char) :
    ofChars ('-' :: cs) =
      { negative := true
        whole := cs.takeWhile Char.isDigit
        places :=
          let after := cs.dropWhile Char.isDigit
          if after.head? = some '.' && startsWithDigit (after.drop 1) then
            some ((after.drop 1).takeWhile Char.isDigit)
          else none } := by
  simp [ofChars]

/-- The text of a number is found again where a word ends after it. -/
theorem Valid.ofChars_append {t : NumberText} (h : t.Valid) {rest : List Char}
    (hrest : EndsWord rest) : ofChars (t.chars ++ rest) = t := by
  have htake : (t.whole ++ (t.fraction ++ rest)).takeWhile Char.isDigit = t.whole :=
    takeWhile_append_of_head h.whole (h.fraction_head hrest)
  have hdrop : (t.whole ++ (t.fraction ++ rest)).dropWhile Char.isDigit = t.fraction ++ rest :=
    dropWhile_append_of_head h.whole (h.fraction_head hrest)
  have hplaces : (if (t.fraction ++ rest).head? = some '.' &&
        startsWithDigit ((t.fraction ++ rest).drop 1) then
      some (((t.fraction ++ rest).drop 1).takeWhile Char.isDigit) else none) = t.places := by
    obtain ⟨negative, whole, places⟩ := t
    cases places with
    | none => simp [fraction, hrest.head?_ne_point]
    | some ps =>
      cases ps with
      | nil => exact absurd rfl h.places_ne_nil
      | cons p ps =>
        have hp : p.isDigit = true := h.places _ rfl p List.mem_cons_self
        have hall : ∀ c ∈ p :: ps, c.isDigit = true := h.places _ rfl
        have htail : (p :: (ps ++ rest)).takeWhile Char.isDigit = p :: ps :=
          takeWhile_append_of_head hall hrest.isDigit_head
        simp [fraction, startsWithDigit, hp, htail]
  have hhead : ∀ d ∈ (t.whole ++ (t.fraction ++ rest)).head?, d.isDigit = true := by
    cases hw : t.whole with
    | nil => exact absurd hw h.whole_ne_nil
    | cons c cs =>
      intro d hd
      obtain rfl : c = d := by simpa using hd
      exact h.whole c (by simp [hw])
  rw [chars_eq, List.append_assoc, List.append_assoc]
  cases hneg : t.negative with
  | true =>
    rw [if_pos rfl, List.singleton_append, ofChars_minus, htake, hdrop]
    simp only [hplaces]
    rw [← hneg]
  | false =>
    have hminus : (t.whole ++ (t.fraction ++ rest)).head? ≠ some '-' := by
      intro hd
      have hdigit := hhead '-' hd
      cases hdigit
    rw [if_neg Bool.false_ne_true, List.nil_append, ofChars_unsigned hminus, htake, hdrop]
    simp only [hplaces]
    rw [← hneg]

theorem Valid.scanNumber {t : NumberText} (h : t.Valid) {rest : List Char}
    (hrest : EndsWord rest) (n : Nat) :
    scanNumber ⟨t.chars ++ rest, n⟩ = (t.token n, ⟨rest, n + t.chars.length⟩) := by
  rw [Template.scanNumber, h.ofChars_append hrest, Cursor.skip_append]

theorem Valid.scanDirective {t : NumberText} (h : t.Valid) {rest : List Char}
    (hrest : EndsWord rest) (n : Nat) :
    scanDirective ⟨t.chars ++ rest, n⟩ = (t.token n, ⟨rest, n + t.chars.length⟩) := by
  have hscan := h.scanNumber hrest n
  cases hw : t.whole with
  | nil => exact absurd hw h.whole_ne_nil
  | cons d ds =>
    have hd : d.isDigit = true := h.whole d (by simp [hw])
    have hname : isNameChar d = true := isNameChar_of_isDigit hd
    rw [chars_eq, hw] at hscan ⊢
    cases hneg : t.negative with
    | true =>
      rw [hneg] at hscan
      rw [Template.scanDirective, if_pos rfl, List.append_assoc, List.append_assoc,
        List.singleton_append, Cursor.skipBlanks_cons (by decide)]
      simpa [startsWithDigit, hd] using hscan
    | false =>
      rw [hneg] at hscan
      have halpha : d.isAlpha = false := isAlpha_of_isDigit hd
      have hdollar : d ≠ '$' := by
        rintro rfl
        cases hd
      have hat : d ≠ '@' := by
        rintro rfl
        cases hd
      rw [Template.scanDirective, if_neg Bool.false_ne_true, List.nil_append, List.append_assoc,
        List.cons_append, Cursor.skipBlanks_cons (not_isBlank_of_isNameChar hname)]
      simpa [hdollar, halpha, hat, hd] using hscan

end NumberText

/-! ### Strings -/

/-- A character of a string is escaped so that the scanner finds it again, or it
stands for itself. -/
theorem escapeString_cons (c : Char) (cs : List Char) :
    (∃ e, stringEscape? e = some c ∧ escapeString (c :: cs) = '\\' :: e :: escapeString cs) ∨
      (c ≠ '\\' ∧ c ≠ '"' ∧ escapeString (c :: cs) = c :: escapeString cs) := by
  rw [escapeString, List.flatMap_cons, ← escapeString]
  by_cases hslash : c = '\\'
  · exact .inl ⟨'\\', by simp [stringEscape?, hslash], by simp [hslash]⟩
  by_cases hquote : c = '"'
  · exact .inl ⟨'"', by simp [stringEscape?, hquote], by simp [hquote]⟩
  by_cases hline : c = '\n'
  · exact .inl ⟨'n', by simp [stringEscape?, hline], by simp [hline]⟩
  by_cases hreturn : c = '\r'
  · exact .inl ⟨'r', by simp [stringEscape?, hreturn], by simp [hreturn]⟩
  by_cases htab : c = '\t'
  · exact .inl ⟨'t', by simp [stringEscape?, htab], by simp [htab]⟩
  · exact .inr ⟨hslash, hquote, by simp [hslash, hquote, hline, hreturn, htab]⟩

theorem scanString_escapeString (start : Nat) (cs rest : List Char) (n : Nat) (acc : List Char) :
    scanString start (escapeString cs ++ '"' :: rest) n acc =
      (.ok (.string (String.ofList (acc.reverse ++ cs))),
        ⟨rest, n + (escapeString cs).length + 1⟩) := by
  induction cs generalizing n acc with
  | nil => simp [escapeString, scanString]
  | cons c cs ih =>
    rcases escapeString_cons c cs with ⟨e, hread, hesc⟩ | ⟨hslash, hquote, hesc⟩
    · rw [hesc]
      simp [scanString, hread, ih]
      omega
    · rw [hesc]
      simp [scanString, hslash, ih]
      omega

theorem scanDirective_string (cs rest : List Char) (n : Nat) :
    scanDirective ⟨'"' :: (escapeString cs ++ '"' :: rest), n⟩ =
      (.ok (.string (String.ofList cs)), ⟨rest, n + 1 + (escapeString cs).length + 1⟩) := by
  rw [scanDirective, Cursor.skipBlanks_cons (by decide)]
  exact scanString_escapeString n cs rest (n + 1) []

/-! ### Text -/

/-- A directive or the end comes next, so that a text ends here. -/
def EndsText (cs : List Char) : Prop :=
  cs = [] ∨ ∃ rest, cs = '{' :: '$' :: rest

theorem scanText_of_endsText {cs : List Char} (h : EndsText cs) (n : Nat) (acc : List Char) :
    scanText cs n acc = (.ok (.text (String.ofList acc.reverse)), ⟨cs, n⟩) := by
  obtain rfl | ⟨rest, rfl⟩ := h
  · rfl
  · rfl

/-- A character of a text is escaped or begins no directive. -/
theorem escapeText_cons (c : Char) (cs : List Char) :
    ((c = '\\' ∨ c = '{') ∧ escapeText (c :: cs) = '\\' :: c :: escapeText cs) ∨
      (c ≠ '\\' ∧ c ≠ '{' ∧ escapeText (c :: cs) = c :: escapeText cs) := by
  rw [escapeText, List.flatMap_cons, ← escapeText]
  by_cases hescape : c = '\\' ∨ c = '{'
  · exact .inl ⟨hescape, by simp [hescape]⟩
  · obtain ⟨hslash, hbrace⟩ := not_or.mp hescape
    exact .inr ⟨hslash, hbrace, by simp [hslash, hbrace]⟩

end PageServer.Template
