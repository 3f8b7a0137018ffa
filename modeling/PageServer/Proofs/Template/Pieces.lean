import Mathlib.Data.List.Forall2
import PageServer.Proofs.Decimal.ReadBack
import PageServer.Proofs.Template.Directives
import PageServer.Proofs.Template.Draining

/-!
# Spellings of a piece

A piece of a directive may be written in more ways than one: the closing keyword in
any letter case, a number with zeros in front of its digits. All of them are read as
one token.
-/

namespace PageServer.Template

/-- Where a word ends after it, the piece of a directive is read as the token. -/
structure ReadsAs (piece : List Char) (t : Token) : Prop where
  scan : ∀ rest, EndsWord rest → ∀ n, ∃ n',
    scanDirective ⟨piece ++ rest, n⟩ = (.ok t, ⟨rest, n'⟩)
  notEnd : t.isEnd = false
  inside : Scanner.modeAfter .directive t = .directive

theorem readsAs_name {s : String} (h : IsVariable s) : ReadsAs s.toList (.name s) := by
  refine ⟨?_, rfl, rfl⟩
  intro rest hrest n
  have htoken : nameToken s.toList = .name s := by
    rw [nameToken]
    by_cases hend : spells endKeyword s.toList = true
    · rw [if_pos hend, h.2 hend]
    · rw [if_neg hend, String.ofList_toList]
  exact ⟨_, htoken ▸ scanDirective_name h.1 hrest n⟩

theorem readsAs_function {s : String} (h : isName s.toList = true) :
    ReadsAs ('@' :: s.toList) (.function s) := by
  refine ⟨?_, rfl, rfl⟩
  intro rest hrest n
  have hscan := scanDirective_function h hrest n
  rw [String.ofList_toList] at hscan
  exact ⟨_, hscan⟩

theorem readsAs_operator {c : Char} (h : c ∈ operators) : ReadsAs [c] (.operator c) := by
  refine ⟨?_, rfl, rfl⟩
  intro rest hrest n
  exact ⟨_, scanDirective_operator h hrest n⟩

theorem readsAs_string (s : String) :
    ReadsAs ('"' :: (escapeString s.toList ++ ['"'])) (.string s) := by
  refine ⟨?_, rfl, rfl⟩
  intro rest hrest n
  have hscan := scanDirective_string s.toList rest n
  rw [String.ofList_toList] at hscan
  have htext : '"' :: (escapeString s.toList ++ ['"']) ++ rest =
      '"' :: (escapeString s.toList ++ '"' :: rest) := by
    simp
  rw [htext]
  exact ⟨_, hscan⟩

theorem NumberText.Valid.readsAs {text : NumberText} (h : text.Valid) {t : Token}
    (ht : ∀ n, text.token n = .ok t) : ReadsAs text.chars t := by
  have hshape := NumberText.token_shape (ht 0)
  refine ⟨?_, ?_, ?_⟩
  · intro rest hrest n
    have hscan := h.scanDirective hrest n
    rw [ht n] at hscan
    exact ⟨_, hscan⟩
  · cases t <;> simp_all [Token.isEnd, Token.kind]
  · cases t <;> simp_all [Scanner.modeAfter, Token.kind]

theorem readsAs_integer (k : Nat) (v : Int64) :
    ReadsAs (Decimal.padded k (Decimal.signed v.toInt)) (.integer v) := by
  let text : NumberText :=
    ⟨v.toInt < 0, Decimal.zeros k ++ Decimal.digits v.toInt.natAbs, none⟩
  have hchars : text.chars = Decimal.padded k (Decimal.signed v.toInt) := by
    by_cases hneg : v.toInt < 0
    · simp [text, NumberText.chars, Decimal.signed, Decimal.padded, hneg]
    · simp [text, NumberText.chars, Decimal.signed, Decimal.padded_digits, hneg]
  have hvalid : text.Valid := by
    refine ⟨?_, ?_, by simp [text], by simp [text]⟩
    · exact List.append_ne_nil_of_right_ne_nil _ (Decimal.digits_ne_nil _)
    · rw [List.forall_mem_append]
      exact ⟨fun _ => Decimal.isDigit_of_mem_zeros, fun _ => Decimal.isDigit_of_mem_digits⟩
  rw [← hchars]
  apply hvalid.readsAs
  intro n
  rw [NumberText.token]
  dsimp only [text]
  rw [hchars, Decimal.readInt64?_padded]

theorem readsAs_double (k : Nat) {x : Float} (h : x.isFinite = true) :
    ReadsAs (Decimal.padded k (Decimal.pointed x)) (.double x) := by
  obtain ⟨negative, whole, places, hpointed, hwhole, hplaces, hdigits, hvalue⟩ :=
    Decimal.readsBack_of_isFinite h
  obtain ⟨hdigits, hdecimals⟩ := List.forall_mem_append.mp hdigits
  let text : NumberText := ⟨negative, Decimal.zeros k ++ whole, some places⟩
  have hvalid : text.Valid := by
    refine ⟨?_, ?_, ?_, ?_⟩
    · exact List.append_ne_nil_of_right_ne_nil _ hwhole
    · rw [List.forall_mem_append]
      exact ⟨fun _ => Decimal.isDigit_of_mem_zeros, hdigits⟩
    · simpa [text] using hplaces
    · rintro ps hps
      obtain rfl : places = ps := by simpa [text] using hps
      exact hdecimals
  have hchars : text.chars = Decimal.padded k (Decimal.pointed x) := by
    rw [hpointed]
    cases negative with
    | true => simp [text, NumberText.chars, Decimal.padded]
    | false =>
      obtain ⟨d, ds, rfl⟩ := List.exists_cons_of_ne_nil hwhole
      have hpadded := Decimal.padded_cons_digit k (hdigits d List.mem_cons_self)
        (ds ++ '.' :: places)
      simp [text, NumberText.chars, hpadded]
  rw [← hchars]
  apply hvalid.readsAs
  intro n
  rw [← hvalue, ← Decimal.ofDigits_zeros_append k, ← List.append_assoc]
  rfl

/-! ### Keywords -/

theorem isAlpha_of_toUpper {c : Char} (h : c.toUpper.isAlpha = true) : c.isAlpha = true := by
  unfold Char.toUpper at h
  split at h
  · next hlower =>
    rw [isAlpha_iff_toNat]
    exact .inr ⟨UInt32.le_iff_toNat_le.mp hlower.1, UInt32.le_iff_toNat_le.mp hlower.2⟩
  · exact h

theorem isName_of_letters {w : List Char} (hne : w ≠ []) (h : ∀ c ∈ w, c.isAlpha = true) :
    isName w = true := by
  obtain ⟨c, cs, rfl⟩ := List.exists_cons_of_ne_nil hne
  obtain ⟨hc, hcs⟩ := List.forall_mem_cons.mp h
  rw [isName, hc, Bool.true_and, List.all_eq_true]
  exact fun d hd => isNameChar_of_isAlpha (hcs d hd)

/-- Any spelling of a word of letters is a name. -/
theorem isName_of_spells {keyword : String} (hne : keyword ≠ "")
    (hkeyword : keyword.toList.all Char.isAlpha = true) {w : List Char}
    (h : spells keyword w = true) : isName w = true := by
  have hupper : w.map Char.toUpper = keyword.toList := eq_of_beq h
  apply isName_of_letters
  · rintro rfl
    exact hne (String.toList_eq_nil_iff.mp hupper.symm)
  · intro c hc
    apply isAlpha_of_toUpper
    apply List.all_eq_true.mp hkeyword
    rw [← hupper]
    exact List.mem_map_of_mem hc

theorem readsAs_endKeyword {w : List Char} (h : spells endKeyword w = true) :
    ReadsAs w (.name endKeyword) := by
  refine ⟨?_, rfl, rfl⟩
  intro rest hrest n
  have hname : isName w = true := isName_of_spells (by decide) (by decide) h
  have hscan := scanDirective_name hname hrest n
  rw [nameToken, if_pos h] at hscan
  exact ⟨_, hscan⟩

/-- A loop may be opened by any spelling of its keyword, which is read as it is. -/
theorem readsAs_forKeyword {w : List Char} (h : spells forKeyword w = true) :
    ReadsAs w (.name (String.ofList w)) := by
  have hname : isName w = true := isName_of_spells (by decide) (by decide) h
  have hend : spells endKeyword w ≠ true := by
    intro hend
    have hsame := (eq_of_beq h).symm.trans (eq_of_beq hend)
    exact absurd hsame (by decide)
  have hvariable : IsVariable (String.ofList w) := by
    rw [IsVariable, String.toList_ofList]
    exact ⟨hname, fun hspells => absurd hspells hend⟩
  have hreads := readsAs_name hvariable
  rwa [String.toList_ofList] at hreads

/-! ### Elements -/

/-- The ways of writing an element. -/
inductive Element.Spelling : Element → List Char → Prop
  | canonical (e : Element) : Spelling e e.chars
  | endKeyword {w : List Char} (h : spells endKeyword w = true) : Spelling (.name endKeyword) w
  | integer (k : Nat) (v : Int64) :
      Spelling (.integer v) (Decimal.padded k (Element.integer v).chars)
  | double (k : Nat) (x : Float) :
      Spelling (.double x) (Decimal.padded k (Element.double x).chars)

theorem readsAs_spelling {e : Element} {cs : List Char} (hcs : e.Spelling cs) (h : e.WellFormed)
    (hx : ∀ x ∈ e.doubles, x.isFinite = true) : ReadsAs cs e.token := by
  cases hcs with
  | endKeyword hw => exact readsAs_endKeyword hw
  | integer k v => exact readsAs_integer k v
  | double k x => exact readsAs_double k (hx x List.mem_cons_self)
  | canonical =>
    cases e with
    | name s => exact readsAs_name h
    | integer v =>
      have hreads := readsAs_integer 0 v
      rwa [Decimal.padded_zero] at hreads
    | double x =>
      have hreads := readsAs_double 0 (hx x List.mem_cons_self)
      rwa [Decimal.padded_zero] at hreads
    | string s => exact readsAs_string s
    | function s => exact readsAs_function h
    | operator c => exact readsAs_operator h.1

theorem readsAs_spellings {es : List Element} {pieces : List (List Char)}
    (hpieces : List.Forall₂ Element.Spelling es pieces) (h : ∀ e ∈ es, e.WellFormed)
    (hx : ∀ x ∈ es.flatMap Element.doubles, x.isFinite = true) :
    List.Forall₂ ReadsAs pieces (es.map Element.token) := by
  induction hpieces with
  | nil => exact .nil
  | cons hpiece hpieces ih =>
    obtain ⟨he, hes⟩ := List.forall_mem_cons.mp h
    rw [List.flatMap_cons, List.forall_mem_append] at hx
    exact .cons (readsAs_spelling hpiece he hx.1) (ih hes hx.2)

end PageServer.Template
