import Mathlib.Data.List.Basic
import PageServer.Response.ErrorPage

/-!
# Text without markup

An escaped text has no brackets and no quotes, and every ampersand in it begins one
of the entities. No two texts are escaped alike, since what the entities stand for
can be put back.
-/

namespace PageServer.Response

/-! ### Entities -/

def entities : List (Char × String) :=
  [('&', "&amp;"), ('<', "&lt;"), ('>', "&gt;"), ('"', "&quot;"), ('\'', "&#39;")]

theorem entity?_eq_some_iff {c : Char} {e : String} : entity? c = some e ↔ (c, e) ∈ entities := by
  simp only [entity?, entities, List.mem_cons, List.not_mem_nil, or_false, Prod.mk.injEq]
  grind

/-- The characters that no text may bring into a page. -/
def isMark (c : Char) : Bool :=
  c == '<' || c == '>' || c == '"' || c == '\''

theorem isMark_of_entity?_eq_none {c : Char} (h : entity? c = none) : isMark c = false := by
  apply Bool.eq_false_iff.mpr
  intro hmark
  simp only [isMark, Bool.or_eq_true, beq_iff_eq, or_assoc] at hmark
  rcases hmark with rfl | rfl | rfl | rfl <;> cases h

/-- All that an entity is: an ampersand, and after it neither a mark nor another one. -/
theorem entity_shape {c : Char} {e : String} (h : entity? c = some e) :
    ∃ body, e.toList = '&' :: body ∧ '&' ∉ body ∧ ∀ d ∈ body, isMark d = false := by
  have hall : ∀ p ∈ entities, p.2.toList.head? = some '&' ∧ '&' ∉ p.2.toList.tail ∧
      p.2.toList.tail.any isMark = false := by
    decide
  obtain ⟨hhead, hamp, hmarks⟩ := hall (c, e) (entity?_eq_some_iff.mp h)
  refine ⟨e.toList.tail, (List.cons_head?_tail hhead).symm, hamp, ?_⟩
  intro d hd
  exact Bool.eq_false_iff.mpr (List.any_eq_false.mp hmarks d hd)

/-! ### Inert text -/

/-- Text that is not markup wherever it stands: it has no mark, and every ampersand
begins an entity. -/
structure IsInert (cs : List Char) : Prop where
  noMark : ∀ c ∈ cs, isMark c = false
  entity : ∀ after, '&' :: after <:+ cs →
    ∃ c e, entity? c = some e ∧ e.toList <+: '&' :: after

namespace IsInert

theorem of_plain {cs : List Char} (h : ∀ c ∈ cs, entity? c = none) : IsInert cs where
  noMark c hc := isMark_of_entity?_eq_none (h c hc)
  entity after hafter := by
    have hnone := h '&' (hafter.subset List.mem_cons_self)
    cases hnone

theorem append {a b : List Char} (ha : IsInert a) (hb : IsInert b) : IsInert (a ++ b) where
  noMark := List.forall_mem_append.mpr ⟨ha.noMark, hb.noMark⟩
  entity after hafter := by
    rcases List.suffix_or_suffix_of_suffix hafter (List.suffix_append a b) with hin | ⟨front, hfront⟩
    · exact hb.entity after hin
    cases front with
    | nil =>
      rw [List.nil_append] at hfront
      exact hb.entity after (hfront ▸ List.suffix_rfl)
    | cons c front =>
      obtain ⟨rfl, rfl⟩ := List.cons.inj hfront
      obtain ⟨before, hbefore⟩ := hafter
      have happend : before ++ '&' :: front ++ b = a ++ b := by
        rw [← hbefore, List.append_assoc]
        rfl
      obtain ⟨d, e, he, hprefix⟩ :=
        ha.entity front ⟨before, List.append_cancel_right happend⟩
      exact ⟨d, e, he, hprefix.trans (List.prefix_append _ b)⟩

theorem escapeChar (c : Char) : IsInert (escapeChar c) := by
  rw [Response.escapeChar]
  cases hentity : entity? c with
  | none =>
    apply of_plain
    intro d hd
    rwa [List.mem_singleton.mp hd]
  | some e =>
    obtain ⟨body, he, hamp, hmarks⟩ := entity_shape hentity
    simp only [he]
    refine ⟨List.forall_mem_cons.mpr ⟨by decide, hmarks⟩, ?_⟩
    intro after hafter
    rcases List.suffix_cons_iff.mp hafter with heq | hin
    · exact ⟨c, e, hentity, (he.trans heq.symm) ▸ List.prefix_rfl⟩
    · exact absurd (hin.subset List.mem_cons_self) hamp

theorem escapeMarkup (s : String) : IsInert (escapeMarkup s).toList := by
  rw [Response.escapeMarkup, String.toList_ofList]
  induction s.toList with
  | nil => exact of_plain fun c hc => absurd hc List.not_mem_nil
  | cons c cs ih => exact (escapeChar c).append ih

end IsInert

/-! ### Escaping undone -/

/-- Puts back what the entities stand for. -/
def unescape : List Char → List Char
  | '&' :: 'a' :: 'm' :: 'p' :: ';' :: rest => '&' :: unescape rest
  | '&' :: 'l' :: 't' :: ';' :: rest => '<' :: unescape rest
  | '&' :: 'g' :: 't' :: ';' :: rest => '>' :: unescape rest
  | '&' :: 'q' :: 'u' :: 'o' :: 't' :: ';' :: rest => '"' :: unescape rest
  | '&' :: '#' :: '3' :: '9' :: ';' :: rest => '\'' :: unescape rest
  | c :: rest => c :: unescape rest
  | [] => []

theorem unescape_cons {c : Char} (hc : c ≠ '&') (rest : List Char) :
    unescape (c :: rest) = c :: unescape rest := by
  rw [unescape]
  all_goals
    rintro _ rfl
    exact absurd rfl hc

theorem unescape_escapeChar_append (c : Char) (rest : List Char) :
    unescape (escapeChar c ++ rest) = c :: unescape rest := by
  rw [escapeChar]
  cases hentity : entity? c with
  | none =>
    have hc : c ≠ '&' := by
      rintro rfl
      cases hentity
    exact unescape_cons hc rest
  | some e =>
    have hmem := entity?_eq_some_iff.mp hentity
    simp only [entities, List.mem_cons, List.not_mem_nil, or_false, Prod.mk.injEq] at hmem
    rcases hmem with ⟨rfl, rfl⟩ | ⟨rfl, rfl⟩ | ⟨rfl, rfl⟩ | ⟨rfl, rfl⟩ | ⟨rfl, rfl⟩ <;> rfl

theorem unescape_escapeMarkup (s : String) : unescape (escapeMarkup s).toList = s.toList := by
  rw [escapeMarkup, String.toList_ofList]
  induction s.toList with
  | nil => rfl
  | cons c cs ih => rw [List.flatMap_cons, unescape_escapeChar_append, ih]

/-! ### Brackets -/

def isBracket (c : Char) : Bool :=
  c == '<' || c == '>'

/-- The brackets of a text in their order. -/
def brackets (s : String) : List Char :=
  s.toList.filter isBracket

def isBracketByte (b : UInt8) : Bool :=
  b == Text.latin1Byte '<' || b == Text.latin1Byte '>'

theorem IsInert.filter_isBracket {cs : List Char} (h : IsInert cs) : cs.filter isBracket = [] := by
  apply List.filter_eq_nil_iff.mpr
  intro c hc hbracket
  have hmark : isMark c = true := by
    rw [isBracket] at hbracket
    rw [isMark, hbracket]
    rfl
  rw [h.noMark c hc] at hmark
  cases hmark

theorem isBracketByte_latin1Byte (c : Char) : isBracketByte (Text.latin1Byte c) = isBracket c := by
  have hbyte (d : Char) (hd : d.toNat < 256) (hmark : d ≠ '?') :
      (Text.latin1Byte c == Text.latin1Byte d) = (c == d) := by
    rw [Bool.eq_iff_iff, beq_iff_eq, beq_iff_eq, Text.latin1Byte_eq_iff hd hmark]
  rw [isBracketByte, isBracket, hbyte '<' (by decide) (by decide),
    hbyte '>' (by decide) (by decide)]

theorem isBracketByte_of_utf8 {c : Char} (hc : 127 < c.toNat) :
    ∀ b ∈ String.utf8EncodeChar c, isBracketByte b = false := by
  have hhigh {n : Nat} (hn : 128 ≤ n % 256) : isBracketByte (UInt8.ofNat n) = false := by
    have hne (m : Nat) (hm : m < 128) : UInt8.ofNat n ≠ UInt8.ofNat m := by
      intro heq
      have hvalue := congrArg UInt8.toNat heq
      rw [UInt8.toNat_ofNat', UInt8.toNat_ofNat'] at hvalue
      omega
    have hless : UInt8.ofNat n ≠ Text.latin1Byte '<' := hne 60 (by decide)
    have hgreater : UInt8.ofNat n ≠ Text.latin1Byte '>' := hne 62 (by decide)
    rw [isBracketByte, beq_false_of_ne hless, beq_false_of_ne hgreater, Bool.or_false]
  have hcode : ¬ c.val.toNat ≤ 127 := Nat.not_le.mpr hc
  have hmax := c.val.toNat_lt
  rw [String.utf8EncodeChar]
  simp only [if_neg hcode]
  split
  · simp only [List.forall_mem_cons, List.not_mem_nil, false_imp_iff, implies_true, and_true]
    exact ⟨hhigh (by omega), hhigh (by omega)⟩
  split
  · simp only [List.forall_mem_cons, List.not_mem_nil, false_imp_iff, implies_true, and_true]
    exact ⟨hhigh (by omega), hhigh (by omega), hhigh (by omega)⟩
  · simp only [List.forall_mem_cons, List.not_mem_nil, false_imp_iff, implies_true, and_true]
    exact ⟨hhigh (by omega), hhigh (by omega), hhigh (by omega), hhigh (by omega)⟩

theorem filter_isBracketByte_utf8 (c : Char) :
    (String.utf8EncodeChar c).filter isBracketByte = ([c].filter isBracket).map Text.latin1Byte := by
  by_cases hc : c.toNat ≤ 127
  · have hbyte : String.utf8EncodeChar c = [Text.latin1Byte c] := by
      have hcode : c.val.toNat ≤ 127 := hc
      have hlatin : c.toNat < 256 := by omega
      rw [String.utf8EncodeChar, Text.latin1Byte, if_pos hlatin]
      exact if_pos hcode
    rw [hbyte, List.filter_singleton, List.filter_singleton, isBracketByte_latin1Byte]
    cases isBracket c <;> rfl
  · have hbytes : (String.utf8EncodeChar c).filter isBracketByte = [] := by
      apply List.filter_eq_nil_iff.mpr
      intro b hb
      rw [isBracketByte_of_utf8 (Nat.not_le.mp hc) b hb]
      exact Bool.false_ne_true
    have hchar : isBracket c = false := by
      apply Bool.eq_false_iff.mpr
      intro hbracket
      simp only [isBracket, Bool.or_eq_true, beq_iff_eq] at hbracket
      rcases hbracket with rfl | rfl <;> exact hc (by decide)
    rw [hbytes, List.filter_singleton, hchar]
    rfl

/-- Neither encoding adds or loses a bracket. -/
theorem filter_isBracketByte_encode (e : Text.Encoding) (s : String) :
    (e.encode s).filter isBracketByte = (brackets s).map Text.latin1Byte := by
  cases e with
  | latin1 =>
    have hsame : isBracketByte ∘ Text.latin1Byte = isBracket := funext isBracketByte_latin1Byte
    rw [Text.Encoding.encode, Text.latin1Bytes, List.filter_map, hsame, brackets]
  | utf8 =>
    rw [Text.Encoding.encode, Text.utf8Bytes, brackets]
    induction s.toList with
    | nil => rfl
    | cons c cs ih =>
      rw [List.flatMap_cons, List.filter_append, ih, filter_isBracketByte_utf8, ← List.map_append,
        ← List.filter_append, List.singleton_append]

end PageServer.Response
