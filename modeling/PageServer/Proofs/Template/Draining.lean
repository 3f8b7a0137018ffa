import Mathlib.Data.List.Chain
import PageServer.Proofs.Template.Scanning
import PageServer.Proofs.Template.WellFormed

/-!
# The tokens of a template

How reading all tokens follows reading one: a stretch of a template adds its
tokens and leaves the rest to whatever follows. Every token that is read has a
certain shape, and no two texts follow one another, because a text ends only
before a directive or at the end.
-/

namespace PageServer.Template

namespace Scanner

theorem drain_of_ok {s s' : Scanner} {t : Token} (h : s.next = (.ok t, s'))
    (ht : t.isEnd = false) :
    s.drain = ({ s' with mode := modeAfter s'.mode t } : Scanner).drain.cons t := by
  rw [drain]
  split
  · next e s'' he =>
    rw [h] at he
    cases he
  · next u s'' he =>
    obtain ⟨rfl, rfl⟩ : t = u ∧ s' = s'' := by simpa [h] using he
    simp [ht]

theorem drain_of_end {s s' : Scanner} {t : Token} (h : s.next = (.ok t, s'))
    (ht : t.isEnd = true) : s.drain = ⟨[t], none⟩ := by
  rw [drain]
  split
  · next e s'' he =>
    rw [h] at he
    cases he
  · next u s'' he =>
    obtain ⟨rfl, rfl⟩ : t = u ∧ s' = s'' := by simpa [h] using he
    simp [ht]

theorem drain_of_error {s s' : Scanner} {e : ScanError} (h : s.next = (.error e, s')) :
    s.drain = ⟨[], some e⟩ := by
  rw [drain]
  split
  · next e' s'' he =>
    obtain ⟨rfl, rfl⟩ : e = e' ∧ s' = s'' := by simpa [h] using he
    rfl
  · next t s'' ht =>
    rw [h] at ht
    cases ht

/-- What the scanner reads in a mode. -/
def scanIn : Mode → Cursor → Scan Token
  | .literal => scanLiteral
  | .directive => scanDirective

theorem next_eq {s : Scanner} (hopen : s.atEnd = false) :
    s.next = match scanIn s.mode s.cursor with
      | (.ok t, c) => (.ok t, ⟨c, s.mode, some t⟩)
      | (.error e, c) => (.error e, ⟨c, s.mode, s.last⟩) := by
  rw [next, hopen, if_neg Bool.false_ne_true]
  cases s.mode with
  | literal =>
    simp only [scanIn]
    cases scanLiteral s.cursor with
    | mk r c => cases r <;> rfl
  | directive =>
    simp only [scanIn]
    cases scanDirective s.cursor with
    | mk r c => cases r <;> rfl

/-- What asking for a token comes to, and the scanner afterwards. -/
inductive Outcome (s : Scanner) : Except ScanError Token → Scanner → Prop
  | exhausted (hend : s.atEnd = true) : Outcome s (.error .exhausted) s
  | failed {c : Cursor} {e : ScanError} (hopen : s.atEnd = false)
      (hscan : scanIn s.mode s.cursor = (.error e, c)) : Outcome s (.error e) ⟨c, s.mode, s.last⟩
  | token {c : Cursor} {t : Token} (hopen : s.atEnd = false)
      (hscan : scanIn s.mode s.cursor = (.ok t, c)) : Outcome s (.ok t) ⟨c, s.mode, some t⟩

theorem outcome_of_next {s s' : Scanner} {r : Except ScanError Token} (h : s.next = (r, s')) :
    s.Outcome r s' := by
  cases hopen : s.atEnd with
  | true =>
    rw [next, hopen, if_pos rfl] at h
    obtain ⟨rfl, rfl⟩ := Prod.mk.inj h
    exact .exhausted hopen
  | false =>
    rw [next_eq hopen] at h
    cases hscan : scanIn s.mode s.cursor with
    | mk result c =>
      rw [hscan] at h
      cases result with
      | error e =>
        obtain ⟨rfl, rfl⟩ := Prod.mk.inj h
        exact .failed hopen hscan
      | ok t =>
        obtain ⟨rfl, rfl⟩ := Prod.mk.inj h
        exact .token hopen hscan

/-! ### Stretches of a template -/

/-- The scanner stands before these characters and has not met the end. -/
structure Before (s : Scanner) (mode : Mode) (cs : List Char) : Prop where
  mode : s.mode = mode
  rest : s.cursor.rest = cs
  notAtEnd : s.atEnd = false

/-- Between two places of a template stand these tokens. -/
def Passes (mode : Mode) (cs : List Char) (ts : List Token) (mode' : Mode) (cs' : List Char) :
    Prop :=
  ∀ s : Scanner, s.Before mode cs → ∃ s' : Scanner, s'.Before mode' cs' ∧
    s.drain = ⟨ts ++ s'.drain.tokens, s'.drain.failure⟩

theorem Passes.refl (mode : Mode) (cs : List Char) : Passes mode cs [] mode cs := by
  intro s hs
  exact ⟨s, hs, rfl⟩

theorem Passes.trans {mode mode' mode'' : Mode} {cs cs' cs'' : List Char} {ts us : List Token}
    (h : Passes mode cs ts mode' cs') (h' : Passes mode' cs' us mode'' cs'') :
    Passes mode cs (ts ++ us) mode'' cs'' := by
  intro s hs
  obtain ⟨s', hs', hdrain⟩ := h s hs
  obtain ⟨s'', hs'', hdrain'⟩ := h' s' hs'
  refine ⟨s'', hs'', ?_⟩
  rw [hdrain, hdrain', List.append_assoc]

theorem Passes.token {mode : Mode} {cs cs' : List Char} {t : Token} (ht : t.isEnd = false)
    (h : ∀ n, ∃ n', scanIn mode ⟨cs, n⟩ = (.ok t, ⟨cs', n'⟩)) :
    Passes mode cs [t] (modeAfter mode t) cs' := by
  intro s hs
  obtain ⟨n', hscan⟩ := h s.cursor.offset
  have hcursor : s.cursor = ⟨cs, s.cursor.offset⟩ := by
    rw [← hs.rest]
  have hnext : s.next = (.ok t, ⟨⟨cs', n'⟩, s.mode, some t⟩) := by
    rw [next_eq hs.notAtEnd, hs.mode, hcursor, hscan]
  refine ⟨⟨⟨cs', n'⟩, modeAfter s.mode t, some t⟩, ⟨?_, rfl, ht⟩, ?_⟩
  · exact congrArg (modeAfter · t) hs.mode
  · exact drain_of_ok hnext ht

theorem drain_of_before_end {s : Scanner} (h : s.Before .literal []) :
    s.drain = ⟨[.endOfInput], none⟩ := by
  obtain ⟨⟨rest, n⟩, mode, last⟩ := s
  obtain ⟨rfl, rfl, hlast⟩ := h
  have hnext : Scanner.next ⟨⟨[], n⟩, .literal, last⟩ =
      (.ok .endOfInput, ⟨⟨[], n⟩, .literal, some .endOfInput⟩) :=
    next_eq hlast
  exact drain_of_end hnext rfl

end Scanner

theorem tokens_of_passes {cs : List Char} {ts : List Token}
    (h : Scanner.Passes .literal cs ts .literal []) :
    tokens (String.ofList cs) = ⟨ts ++ [.endOfInput], none⟩ := by
  have hstart : (Scanner.ofChars (String.ofList cs).toList).Before .literal cs :=
    ⟨rfl, String.toList_ofList, rfl⟩
  obtain ⟨s', hs', hdrain⟩ := h _ hstart
  rw [tokens, hdrain, Scanner.drain_of_before_end hs']

/-! ### The shape of tokens -/

/-- What every token that is read satisfies. -/
def Token.IsLexeme : Token → Prop
  | text s => s ≠ ""
  | name s => IsVariable s
  | function s => isName s.toList = true
  | operator c => c ∈ operators
  | tagOpen | tagClose | integer _ | double _ | string _ | endOfInput => True

/-- Whether tokens of this kind stand outside directives. -/
def TokenKind.isOutside : TokenKind → Bool
  | text | tagOpen | endOfInput => true
  | _ => false

/-- After a text and after the end there is no text. -/
def Token.MayPrecede (t u : Token) : Prop :=
  t.kind = .text ∨ t.kind = .endOfInput → u.kind ≠ .text

theorem scanText_shape {cs acc : List Char} {n : Nat} {t : Token}
    (h : (scanText cs n acc).1 = .ok t) :
    (∃ ds, t = .text (String.ofList (acc.reverse ++ ds)) ∧ (ds = [] → EndsText cs)) ∧
      EndsText (scanText cs n acc).2.rest := by
  fun_induction scanText cs n acc with
  | case1 rest n acc =>
    obtain rfl : Token.text (String.ofList acc.reverse) = t := by simpa using h
    exact ⟨⟨[], by simp, fun _ => .inr ⟨rest, rfl⟩⟩, .inr ⟨rest, rfl⟩⟩
  | case2 c rest n acc hc ih =>
    obtain ⟨⟨ds, rfl, -⟩, hend⟩ := ih h
    exact ⟨⟨c :: ds, by simp, fun hnil => by cases hnil⟩, hend⟩
  | case3 c rest n acc hc => cases h
  | case4 n acc => cases h
  | case5 c rest n acc hopen hslash hlast ih =>
    obtain ⟨⟨ds, rfl, -⟩, hend⟩ := ih h
    exact ⟨⟨c :: ds, by simp, fun hnil => by cases hnil⟩, hend⟩
  | case6 n acc =>
    obtain rfl : Token.text (String.ofList acc.reverse) = t := by simpa using h
    exact ⟨⟨[], by simp, fun _ => .inl rfl⟩, .inl rfl⟩

theorem scanLiteral_shape {c : Cursor} {t : Token} (h : (scanLiteral c).1 = .ok t) :
    t.IsLexeme ∧ (t.kind = .text → EndsText (scanLiteral c).2.rest) ∧
      (t.kind = .text → ¬ EndsText c.rest) := by
  obtain ⟨cs, n⟩ := c
  unfold scanLiteral at h ⊢
  split at h
  · obtain rfl : Token.endOfInput = t := by simpa using h
    exact ⟨trivial, nofun, nofun⟩
  · obtain rfl : Token.tagOpen = t := by simpa using h
    exact ⟨trivial, nofun, nofun⟩
  · next hnil hopen =>
    have hends : ¬ EndsText cs := by
      rintro (rfl | ⟨rest, rfl⟩)
      · exact hnil rfl
      · exact hopen rest rfl
    obtain ⟨⟨ds, rfl, hds⟩, hrest⟩ := scanText_shape h
    refine ⟨?_, fun _ => hrest, fun _ => hends⟩
    intro hempty
    apply hends
    apply hds
    simpa using hempty

theorem scanLiteral_kind {c : Cursor} {t : Token} (h : (scanLiteral c).1 = .ok t) :
    (∃ s, t = .text s) ∨ t = .tagOpen ∨ t = .endOfInput := by
  unfold scanLiteral at h
  split at h
  · exact .inr (.inr (Except.ok.inj h).symm)
  · exact .inr (.inl (Except.ok.inj h).symm)
  · obtain ⟨⟨ds, rfl, -⟩, -⟩ := scanText_shape h
    exact .inl ⟨_, rfl⟩

theorem isVariable_endKeyword : IsVariable endKeyword := by
  decide

theorem nameToken_isLexeme {cs : List Char} (h : isName cs = true) : (nameToken cs).IsLexeme := by
  rw [nameToken]
  by_cases hend : spells endKeyword cs = true
  · rw [if_pos hend]
    exact isVariable_endKeyword
  · rw [if_neg hend]
    refine ⟨by rwa [String.toList_ofList], fun hspells => ?_⟩
    rw [String.toList_ofList] at hspells
    exact absurd hspells hend

theorem isName_leadingName {cs : List Char} (h : startsWithLetter cs = true) :
    isName (leadingName cs) = true := by
  cases cs with
  | nil => cases h
  | cons c cs =>
    have halpha : c.isAlpha = true := h
    have hname : isNameChar c = true := isNameChar_of_isAlpha halpha
    rw [leadingName, List.takeWhile_cons_of_pos hname, isName, halpha, Bool.true_and]
    exact List.all_takeWhile

theorem scanString_shape {start n : Nat} {cs acc : List Char} {t : Token}
    (h : (scanString start cs n acc).1 = .ok t) : t.kind = .string := by
  fun_induction scanString start cs n acc with
  | case1 n acc => cases h
  | case2 rest n acc =>
    obtain rfl : Token.string (String.ofList acc.reverse) = t := by simpa using h
    rfl
  | case3 n acc => cases h
  | case4 c rest n acc d hd ih => exact ih h
  | case5 c rest n acc hd => cases h
  | case6 c rest n acc hquote hslash hlast ih => exact ih h

theorem NumberText.token_shape {text : NumberText} {n : Nat} {t : Token}
    (h : text.token n = .ok t) : t.kind = .integer ∨ t.kind = .double := by
  unfold token at h
  split at h
  · obtain rfl := Except.ok.inj h
    exact .inr rfl
  · split at h
    · obtain rfl := Except.ok.inj h
      exact .inl rfl
    · cases h

theorem Token.isLexeme_of_kind {t : Token}
    (h : t.kind = .integer ∨ t.kind = .double ∨ t.kind = .string) : t.IsLexeme := by
  cases t with
  | integer v => trivial
  | double x => trivial
  | string s => trivial
  | _ => simp [kind] at h

theorem scanDirective_shape {c : Cursor} {t : Token} (h : (scanDirective c).1 = .ok t) :
    t.IsLexeme ∧ t.kind.isOutside = false := by
  unfold scanDirective at h
  generalize c.skipBlanks = d at h
  obtain ⟨cs, n⟩ := d
  cases cs with
  | nil => cases h
  | cons ch rest =>
    simp only at h
    split at h
    · obtain rfl : Token.tagClose = t := by simpa using h
      exact ⟨trivial, rfl⟩
    split at h
    · next halpha =>
      obtain rfl : nameToken (leadingName (ch :: rest)) = t := by simpa using h
      exact ⟨nameToken_isLexeme (isName_leadingName halpha), rfl⟩
    split at h
    · split at h
      · next hletter =>
        obtain rfl : Token.function (String.ofList (leadingName rest)) = t := by simpa using h
        refine ⟨?_, rfl⟩
        rw [Token.IsLexeme, String.toList_ofList]
        exact isName_leadingName hletter
      · cases h
    split at h
    · have hkind := NumberText.token_shape h
      refine ⟨Token.isLexeme_of_kind (hkind.imp_right .inl), ?_⟩
      rcases hkind with hkind | hkind <;> rw [hkind] <;> rfl
    split at h
    · next hop =>
      obtain rfl : Token.operator ch = t := by simpa using h
      exact ⟨by simpa [Token.IsLexeme] using hop, rfl⟩
    split at h
    · have hkind := scanString_shape h
      exact ⟨Token.isLexeme_of_kind (.inr (.inr hkind)), by rw [hkind]; rfl⟩
    · cases h

theorem Scanner.scanIn_shape {mode : Mode} {c c' : Cursor} {t : Token}
    (h : scanIn mode c = (.ok t, c')) :
    t.IsLexeme ∧ (t.kind.isOutside = true ↔ mode = .literal) := by
  cases mode with
  | literal =>
    have hliteral : (scanLiteral c).1 = .ok t := congrArg Prod.fst h
    refine ⟨(scanLiteral_shape hliteral).1, iff_of_true ?_ rfl⟩
    rcases scanLiteral_kind hliteral with ⟨text, rfl⟩ | rfl | rfl <;> rfl
  | directive =>
    obtain ⟨hlex, hinside⟩ := scanDirective_shape (congrArg Prod.fst h)
    exact ⟨hlex, iff_of_false (Bool.eq_false_iff.mp hinside) nofun⟩

namespace Scanner

/-- After a text the scanner stands before a directive or the end. -/
def Settled (s : Scanner) : Prop :=
  ∀ t ∈ s.last, t.kind = .text → s.mode = .literal ∧ EndsText s.cursor.rest

theorem settled_ofChars (cs : List Char) : (ofChars cs).Settled := by
  intro t ht
  cases ht

theorem next_shape {s s' : Scanner} {t : Token} (hs : s.Settled) (h : s.next = (.ok t, s')) :
    t.IsLexeme ∧ (∀ u ∈ s.last, u.MayPrecede t) ∧ s'.last = some t ∧
      ({ s' with mode := modeAfter s'.mode t } : Scanner).Settled := by
  cases outcome_of_next h with
  | @token c _ hopen hscan =>
    obtain ⟨hlex, hmode⟩ := scanIn_shape hscan
    have htext (ht : t.kind = .text) :
        s.mode = .literal ∧ EndsText c.rest ∧ ¬ EndsText s.cursor.rest := by
      have hliteral : s.mode = .literal := hmode.mp (by rw [ht]; rfl)
      rw [hliteral] at hscan
      obtain ⟨-, hafter, hbefore⟩ := scanLiteral_shape (congrArg Prod.fst hscan)
      have hrest : (scanLiteral s.cursor).2 = c := congrArg Prod.snd hscan
      exact ⟨hliteral, hrest ▸ hafter ht, hbefore ht⟩
    refine ⟨hlex, ?_, rfl, ?_⟩
    · intro u hu hkind ht
      rcases hkind with hkind | hkind
      · exact (htext ht).2.2 (hs u hu hkind).2
      · have hlast : s.last = some u := hu
        simp [atEnd, hlast, Token.isEnd, hkind] at hopen
    · intro u hu ht
      obtain rfl : t = u := by simpa using hu
      obtain ⟨hliteral, hends, -⟩ := htext ht
      cases t with
      | text text => exact ⟨hliteral, hends⟩
      | _ => cases ht

theorem drain_isLexeme {s : Scanner} (hs : s.Settled) : ∀ t ∈ s.drain.tokens, t.IsLexeme := by
  fun_induction drain s with
  | case1 s e s' h => simp
  | case2 s t s' h ht =>
    intro u hu
    obtain rfl : u = t := by simpa using hu
    exact (next_shape hs h).1
  | case3 s t s' h ht this ih =>
    obtain ⟨hlex, -, -, hsettled⟩ := next_shape hs h
    intro u hu
    rcases List.mem_cons.mp hu with rfl | hu
    · exact hlex
    · exact ih hsettled u hu

theorem drain_isChain {s : Scanner} (hs : s.Settled) :
    (s.last.toList ++ s.drain.tokens).IsChain Token.MayPrecede := by
  -- the chain begins with the token read before, so that no two texts meet across a step
  have hprepend : ∀ (last : Option Token) (t : Token) (ts : List Token),
      (∀ u ∈ last, u.MayPrecede t) → (t :: ts).IsChain Token.MayPrecede →
      (last.toList ++ t :: ts).IsChain Token.MayPrecede := by
    intro last t ts hlast hchain
    cases last with
    | none => exact hchain
    | some u => exact List.IsChain.cons_cons (hlast u rfl) hchain
  fun_induction drain s with
  | case1 s e s' h =>
    cases s.last with
    | none => exact List.IsChain.nil
    | some u => exact List.IsChain.singleton u
  | case2 s t s' h ht =>
    obtain ⟨-, hlast, -, -⟩ := next_shape hs h
    exact hprepend s.last t [] hlast (List.IsChain.singleton t)
  | case3 s t s' h ht this ih =>
    obtain ⟨-, hlast, hs', hsettled⟩ := next_shape hs h
    have hchain := ih hsettled
    simp only [hs'] at hchain ⊢
    exact hprepend s.last t _ hlast hchain

end Scanner

theorem tokens_isLexeme (source : String) : ∀ t ∈ (tokens source).tokens, t.IsLexeme :=
  Scanner.drain_isLexeme (Scanner.settled_ofChars _)

theorem tokens_isChain (source : String) :
    (tokens source).tokens.IsChain Token.MayPrecede :=
  Scanner.drain_isChain (Scanner.settled_ofChars _)

end PageServer.Template
