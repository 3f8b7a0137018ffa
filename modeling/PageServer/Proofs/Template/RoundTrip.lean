import PageServer.Proofs.Template.Equality
import PageServer.Proofs.Template.Spelling

/-!
# Documents and their sources

However a well-formed document is written, it is read as that document, and nothing
but well-formed documents is ever read.
-/

namespace PageServer.Template

theorem parse_source_of_wellFormed {d : Document} (h : d.WellFormed)
    (hx : ∀ x ∈ d.doubles, x.isFinite = true) : parse d.source = .ok d :=
  parse_of_spelling d.spelling_source h hx

/-! ### What is read is well-formed -/

namespace Node

theorem separated_cons {n : Node} {ns : List Node} (hn : n.isText = false)
    (hns : Separated ns) : Separated (n :: ns) := by
  refine List.isChain_cons.mpr ⟨?_, hns⟩
  rintro m - ⟨htext, -⟩
  rw [hn] at htext
  cases htext

theorem separated_reverse {ns : List Node} : Separated ns.reverse ↔ Separated ns := by
  rw [Separated, List.isChain_reverse, Separated]
  exact List.IsChain.iff fun n m => not_congr and_comm

theorem allWellFormed_reverse {ns : List Node} :
    AllWellFormed ns.reverse ↔ AllWellFormed ns := by
  simp [allWellFormed_iff]

end Node

/-- What a directive has collected can stand in a document. -/
def Partial.Sound : Partial → Prop
  | opened | closing | loopName => True
  | echo es => ∀ e ∈ es, e.WellFormed
  | loopBounds counter bs => IsVariable counter ∧ ∀ e ∈ bs, e.isBound = true ∧ e.WellFormed

def Directive.Sound : Directive → Prop
  | echo es => ∀ e ∈ es, e.WellFormed
  | loop h => h.WellFormed
  | close => True

structure OpenLoop.Sound (l : OpenLoop) : Prop where
  header : l.header.WellFormed
  separated : Node.Separated l.before
  before : Node.AllWellFormed l.before

/-- The nodes read so far can stand in a document. The token read last tells
whether a text may come next. -/
structure Reader.Sound (last : Option Token) (r : Reader) : Prop where
  separated : Node.Separated r.nodes
  nodes : Node.AllWellFormed r.nodes
  loops : ∀ l ∈ r.loops, l.Sound
  directive : ∀ d ∈ r.directive, d.Sound
  afterText : r.directive = none → ∀ n ∈ r.nodes.head?, n.isText = true →
    ∃ t ∈ last, t.kind = .text ∨ t.kind = .endOfInput

theorem Element.wellFormed_of_isLexeme {e : Element} (h : e.token.IsLexeme)
    (hassign : e ≠ .operator '=') : e.WellFormed := by
  cases e with
  | name s => exact h
  | function s => exact h
  | operator c =>
    refine ⟨h, ?_⟩
    rintro rfl
    exact hassign rfl
  | integer v => trivial
  | double x => trivial
  | string s => trivial

namespace Partial

theorem Sound.step_opened {t : Token} {r : Partial ⊕ Directive}
    (h : opened.step t = .ok r) : Sum.elim Sound Directive.Sound r := by
  cases t with
  | operator c =>
    simp only [step] at h
    split at h
    · obtain rfl := Except.ok.inj h
      intro e he
      cases he
    · cases h
  | name s =>
    simp only [step] at h
    split at h
    · obtain rfl := Except.ok.inj h
      trivial
    split at h
    · obtain rfl := Except.ok.inj h
      trivial
    · cases h
  | _ => cases h

theorem Sound.step_echo {es : List Element} (hes : ∀ e ∈ es, e.WellFormed) {t : Token}
    (ht : t.IsLexeme) {r : Partial ⊕ Directive} (h : (echo es).step t = .ok r) :
    Sum.elim Sound Directive.Sound r := by
  by_cases hclose : t = .tagClose
  · subst hclose
    obtain rfl := Except.ok.inj h
    intro e he
    exact hes e (List.mem_reverse.mp he)
  · rw [step_echo_ofEchoed hclose] at h
    split at h
    · next e he =>
      obtain rfl := Except.ok.inj h
      obtain ⟨rfl, hassign⟩ := (Element.ofEchoed_eq_ok_iff t e).mp he
      exact List.forall_mem_cons.mpr ⟨Element.wellFormed_of_isLexeme ht hassign, hes⟩
    · cases h

theorem wellFormed_of_ofBounds {counter : String} (hcounter : IsVariable counter)
    {bs : List Element} (hbs : ∀ e ∈ bs, e.isBound = true ∧ e.WellFormed) {h : LoopHeader}
    (heq : LoopHeader.ofBounds counter bs = .ok h) : h.WellFormed := by
  obtain ⟨rfl, rfl⟩ := (LoopHeader.ofBounds_eq_ok_iff counter bs h).mp heq
  exact ⟨hcounter, hbs⟩

theorem Sound.step_loopBounds {counter : String} {bs : List Element}
    (hd : Sound (loopBounds counter bs)) {t : Token} (ht : t.IsLexeme)
    {r : Partial ⊕ Directive} (h : (loopBounds counter bs).step t = .ok r) :
    Sum.elim Sound Directive.Sound r := by
  obtain ⟨hcounter, hbs⟩ := hd
  by_cases hclose : t = .tagClose
  · subst hclose
    cases hof : LoopHeader.ofBounds counter bs.reverse with
    | error e =>
      rw [step, hof] at h
      cases h
    | ok header =>
      rw [step, hof] at h
      obtain rfl := Except.ok.inj h
      exact wellFormed_of_ofBounds hcounter (fun e he => hbs e (List.mem_reverse.mp he)) hof
  · rw [step_loopBounds_ofBound hclose] at h
    split at h
    · next e he =>
      obtain rfl := Except.ok.inj h
      obtain ⟨rfl, hbound⟩ := (Element.ofBound_eq_ok_iff t e).mp he
      have hassign : e ≠ .operator '=' := by
        rintro rfl
        cases hbound
      have hwell := Element.wellFormed_of_isLexeme ht hassign
      exact ⟨hcounter, List.forall_mem_cons.mpr ⟨⟨hbound, hwell⟩, hbs⟩⟩
    · cases h

/-- Whatever a directive takes keeps it fit for a document. -/
theorem Sound.step {d : Partial} (hd : d.Sound) {t : Token} (ht : t.IsLexeme)
    {r : Partial ⊕ Directive} (h : d.step t = .ok r) : Sum.elim Sound Directive.Sound r := by
  cases d with
  | opened => exact step_opened h
  | echo es => exact step_echo hd ht h
  | closing =>
    cases t with
    | tagClose =>
      obtain rfl := Except.ok.inj h
      trivial
    | _ => cases h
  | loopName =>
    cases t with
    | name s =>
      obtain rfl := Except.ok.inj h
      exact ⟨ht, nofun⟩
    | _ => cases h
  | loopBounds counter bs => exact step_loopBounds hd ht h

end Partial

namespace Reader

theorem sound_start : start.Sound none where
  separated := List.IsChain.nil
  nodes := trivial
  loops _ hl := absurd hl List.not_mem_nil
  directive := nofun
  afterText := nofun

theorem Sound.add_text {last : Option Token} {r : Reader} (hr : r.Sound last)
    (hdir : r.directive = none) {s : String} (hs : s ≠ "")
    (hlast : ∀ u ∈ last, u.MayPrecede (.text s)) : (r.add (.text s)).Sound (some (.text s)) where
  separated := by
    refine List.isChain_cons.mpr ⟨?_, hr.separated⟩
    rintro n hn ⟨-, htext⟩
    obtain ⟨u, hu, hkind⟩ := hr.afterText hdir n hn htext
    exact hlast u hu hkind rfl
  nodes := ⟨hs, hr.nodes⟩
  loops := hr.loops
  directive := hr.directive
  afterText := fun _ _ _ _ => ⟨.text s, rfl, .inl rfl⟩

theorem Sound.inside {last last' : Option Token} {r : Reader} (hr : r.Sound last) {d : Partial}
    (hd : d.Sound) : Reader.Sound last' { r with directive := some d } where
  separated := hr.separated
  nodes := hr.nodes
  loops := hr.loops
  directive := by
    intro d' hd'
    obtain rfl : d = d' := by simpa using hd'
    exact hd
  afterText := nofun

theorem Sound.complete {last last' : Option Token} {r r' : Reader} (hr : r.Sound last)
    {done : Directive} (hdone : done.Sound) (h : r.complete done = .ok r') : r'.Sound last' := by
  cases done with
  | echo es =>
    obtain rfl := Except.ok.inj h
    refine ⟨?_, ⟨hdone, hr.nodes⟩, hr.loops, nofun, ?_⟩
    · exact Node.separated_cons rfl hr.separated
    · intro _ n hn htext
      obtain rfl : Node.echo es = n := by simpa using hn
      cases htext
  | loop header =>
    obtain rfl := Except.ok.inj h
    refine ⟨List.IsChain.nil, trivial, ?_, nofun, nofun⟩
    intro l hl
    rcases List.mem_cons.mp hl with rfl | hl
    · exact ⟨hdone, hr.separated, hr.nodes⟩
    · exact hr.loops l hl
  | close =>
    obtain ⟨nodes, loops, directive⟩ := r
    cases loops with
    | nil => cases h
    | cons l ls =>
      obtain rfl := Except.ok.inj h
      have hl := hr.loops l List.mem_cons_self
      have hnode : (Node.loop l.header nodes.reverse).WellFormed :=
        ⟨hl.header, Node.separated_reverse.mpr hr.separated,
          Node.allWellFormed_reverse.mpr hr.nodes⟩
      refine ⟨?_, ⟨hnode, hl.before⟩, ?_, nofun, ?_⟩
      · exact Node.separated_cons rfl hl.separated
      · exact fun l' hl' => hr.loops l' (List.mem_cons_of_mem l hl')
      · intro _ n hn htext
        obtain rfl : Node.loop l.header nodes.reverse = n := by simpa using hn
        cases htext

theorem Sound.step {last : Option Token} {r r' : Reader} (hr : r.Sound last) {t : Token}
    (ht : t.IsLexeme) (hlast : ∀ u ∈ last, u.MayPrecede t) (h : r.step t = .ok r') :
    r'.Sound (some t) := by
  cases hdir : r.directive with
  | none =>
    rw [step_outside hdir] at h
    cases t with
    | text s =>
      obtain rfl := Except.ok.inj h
      exact hr.add_text hdir ht hlast
    | tagOpen =>
      obtain rfl := Except.ok.inj h
      exact hr.inside trivial
    | endOfInput =>
      obtain rfl := Except.ok.inj h
      exact ⟨hr.separated, hr.nodes, hr.loops, hr.directive,
        fun _ _ _ _ => ⟨.endOfInput, rfl, .inr rfl⟩⟩
    | _ => cases h
  | some d =>
    have hd := hr.directive d hdir
    cases hstep : d.step t with
    | error e =>
      simp only [Reader.step, hdir, hstep] at h
      cases h
    | ok next =>
      have hnext := hd.step ht hstep
      cases next with
      | inl d' =>
        rw [step_inside hdir hstep] at h
        obtain rfl := Except.ok.inj h
        exact hr.inside hnext
      | inr done =>
        rw [step_done hdir hstep] at h
        exact hr.complete hnext h

theorem Sound.run {last : Option Token} {r r' : Reader} (hr : r.Sound last) {ts : List Token}
    (hts : ∀ t ∈ ts, t.IsLexeme) (hchain : (last.toList ++ ts).IsChain Token.MayPrecede)
    (h : r.run ts = .ok r') : ∃ last', r'.Sound last' := by
  -- the last token goes along: it is what rules out two texts side by side
  induction ts generalizing last r with
  | nil =>
    obtain rfl := Except.ok.inj h
    exact ⟨last, hr⟩
  | cons t ts ih =>
    have hlast : ∀ u ∈ last, u.MayPrecede t := by
      rintro u rfl
      exact (List.isChain_cons_cons.mp hchain).1
    have htail : (t :: ts).IsChain Token.MayPrecede := by
      cases last with
      | none => exact hchain
      | some u => exact (List.isChain_cons_cons.mp hchain).2
    cases hstep : r.step t with
    | error e =>
      rw [Reader.run, hstep] at h
      cases h
    | ok r₁ =>
      rw [run_cons hstep] at h
      have hr₁ := hr.step (hts t List.mem_cons_self) hlast hstep
      exact ih hr₁ (fun u hu => hts u (List.mem_cons_of_mem t hu)) htail h

end Reader

theorem wellFormed_of_parse {source : String} {d : Document} (h : parse source = .ok d) :
    d.WellFormed := by
  rw [parse, TokenStream.document] at h
  split at h
  · cases h
  · next r hrun =>
    split at h
    · cases h
    · obtain ⟨last, hr⟩ := Reader.sound_start.run (tokens_isLexeme source)
        (tokens_isChain source) hrun
      rw [Reader.finish] at h
      split at h
      · obtain rfl := Except.ok.inj h
        exact ⟨Node.separated_reverse.mpr hr.separated, Node.allWellFormed_reverse.mpr hr.nodes⟩
      · cases h

/-- The source of a document is read as that document exactly if the document
is well-formed, and so it is if doubles are compared as numbers. -/
theorem parse_source_iff_wellFormed (d : Document)
    (hfinite : ∀ x ∈ d.doubles, x.isFinite = true) :
    (parse d.source = .ok d ↔ d.WellFormed) ∧
      ((∃ e, parse d.source = .ok e ∧ (d == e) = true) ↔ d.WellFormed) := by
  have hread : d.WellFormed → parse d.source = .ok d :=
    fun h => parse_source_of_wellFormed h hfinite
  constructor
  · exact ⟨wellFormed_of_parse, hread⟩
  · constructor
    · rintro ⟨e, hparse, hsame⟩
      exact (wellFormed_of_parse hparse).of_beq hsame
    · intro h
      exact ⟨d, hread h, Document.beq_self hfinite⟩

theorem parse_source_halves :
    let d : Document := ⟨[.loop ⟨"i", .integer 1, .name "END", some (.double 0.5)⟩ [.text "\x7b$"]]⟩
    (parse d.source = .ok d ↔ d.WellFormed) ∧
      ((∃ e, parse d.source = .ok e ∧ (d == e) = true) ↔ d.WellFormed) := by
  apply parse_source_iff_wellFormed
  intro x hx
  obtain rfl : x = 0.5 := by
    simpa [Document.doubles, Node.allDoubles, Node.doubles, LoopHeader.bounds,
      Element.doubles] using hx
  decide +kernel

/-! ### Every spelling -/

/-- A document that was read and has finite doubles is read from whatever spells it,
and its canonical source is one of its spellings. -/
theorem parse_every_spelling {source : String} {d : Document} (h : parse source = .ok d)
    (hx : ∀ x ∈ d.doubles, x.isFinite = true) :
    d.Spelling d.source ∧ ∀ other, d.Spelling other → parse other = .ok d := by
  refine ⟨d.spelling_source, ?_⟩
  intro other hother
  exact parse_of_spelling hother (wellFormed_of_parse h) hx

/-- A loop with zeros in front of its bounds and a variable `END` among them, and a
brace right before a directive. -/
theorem parse_unusual_spelling :
    let header : LoopHeader := ⟨"i", .integer (-7), .name "END", some (.double 0.5)⟩
    let d : Document := ⟨[.loop header [.text "\x7b", .echo [.string "  "]]]⟩
    let other :=
      "\x7b$\tfOr i\u3000-007 eNd\n00.5 $\x7d\x7b\x7b$\u00a0= \"  \" $\x7d\x7b$ End  $\x7d"
    parse d.source = .ok d ∧ d.Spelling other ∧ parse other = .ok d := by
  intro header d other
  have hfinite : ∀ x ∈ d.doubles, x.isFinite = true := by
    intro x hx
    obtain rfl : x = 0.5 := by
      simpa [d, header, Document.doubles, Node.allDoubles, Node.doubles, LoopHeader.bounds,
        Element.doubles] using hx
    decide +kernel
  have hwell : d.WellFormed := by decide
  have hparse : parse d.source = .ok d := parse_source_of_wellFormed hwell hfinite
  have hbounds : List.Forall₂ Element.Spelling (.name header.counter :: header.bounds)
      ["i".toList, "-007".toList, "eNd".toList, "00.5".toList] := by
    have hinteger : Decimal.padded 2 (Element.integer (-7)).chars = "-007".toList := by decide
    have hdouble : Decimal.padded 1 (Element.double 0.5).chars = "00.5".toList := by
      decide +kernel
    rw [← hinteger, ← hdouble]
    exact .cons (.canonical _) (.cons (.integer 2 _)
      (.cons (.endKeyword (by decide)) (.cons (.double 1 _) .nil)))
  have hopening : header.Spelling "\x7b$\tfOr i\u3000-007 eNd\n00.5 $\x7d".toList := by
    have htab : IsGap ['\t'] := by decide
    have hwide : IsGap ['\u3000'] := by decide
    have hline : IsGap ['\n'] := by decide
    exact ⟨"fOr".toList, _, by decide, hbounds, _, _, .cons htab (.cons isGap_space (.cons hwide
      (.cons isGap_space (.cons hline .nil)))), isGap_space, by decide⟩
  have hclosing : ClosesLoop "\x7b$ End  $\x7d".toList := by
    have hgap : IsGap [' ', ' '] := by decide
    exact ⟨"End".toList, by decide, _, _, .cons isGap_space .nil, hgap, by decide⟩
  have hecho : LaysOut [['='], ['"', ' ', ' ', '"']] "\x7b$\u00a0= \"  \" $\x7d".toList := by
    have hgap : IsGap ['\u00a0'] := by decide
    exact ⟨_, _, .cons hgap (.cons isGap_space .nil), isGap_space, by decide⟩
  have hbody (rest : List Char) : Node.AllSpelling [.text "\x7b", .echo [.string "  "]] rest
      "\x7b\x7b$\u00a0= \"  \" $\x7d".toList := by
    refine ⟨['\x7b'], _, .brace ?_ .nil,
      ⟨_, [], ⟨_, .cons (.canonical (.string "  ")) .nil, hecho⟩, rfl, rfl⟩, by decide⟩
    simp
  have hspelling : d.Spelling other :=
    ⟨_, [], ⟨_, _, _, hopening, hclosing, hbody _, rfl⟩, rfl, by decide⟩
  exact ⟨hparse, hspelling, (parse_every_spelling hparse hfinite).2 other hspelling⟩

end PageServer.Template
