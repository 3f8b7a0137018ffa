import PageServer.Proofs.Template.RoundTrip

/-!
# Canonical sources

Every document that was read has a canonical source. It is read as the same
document if all doubles are finite. An infinite one is written as a word with a
point behind it, which no scanner takes for a number, so the source of such a
document is refused.
-/

namespace PageServer.Template

open Scanner (Passes)

/-! ### Places from which scanning fails -/

namespace Scanner

/-- Whoever scans on from here meets an error. -/
def Fails (mode : Mode) (cs : List Char) : Prop :=
  ∀ s : Scanner, s.Before mode cs → s.drain.failure ≠ none

theorem Passes.fails {mode mode' : Mode} {cs cs' : List Char} {ts : List Token}
    (h : Passes mode cs ts mode' cs') (h' : Fails mode' cs') : Fails mode cs := by
  intro s hs
  obtain ⟨s', hs', hdrain⟩ := h s hs
  rw [hdrain]
  exact h' s' hs'

theorem fails_of_error {mode : Mode} {cs : List Char}
    (h : ∀ n, ∃ e c, scanIn mode ⟨cs, n⟩ = (.error e, c)) : Fails mode cs := by
  intro s hs
  obtain ⟨e, c, hscan⟩ := h s.cursor.offset
  have hcursor : s.cursor = ⟨cs, s.cursor.offset⟩ := by
    rw [← hs.rest]
  have hnext : s.next = (.error e, ⟨c, s.mode, s.last⟩) := by
    rw [next_eq hs.notAtEnd, hs.mode, hcursor, hscan]
  rw [drain_of_error hnext]
  nofun

end Scanner

open Scanner (Fails)

/-! ### Doubles that are no numbers -/

theorem pointed_of_not_isFinite {x : Float} (h : x.isFinite = false) :
    Decimal.pointed x = "inf.0".toList ∨ Decimal.pointed x = "-inf.0".toList ∨
      Decimal.pointed x = "NaN.0".toList := by
  change x.toModel.unpack.isFinite = false at h
  have hfloat := Decimal.Binary64.ofFloat_eq x
  cases hx : x.toModel.unpack with
  | zero s =>
    rw [hx] at h
    cases h
  | finite s m e hm =>
    rw [hx] at h
    cases h
  | infinity s =>
    have hinf : Decimal.Binary64.ofFloat x = .infinite (s == .negative) := by
      rw [hfloat, hx]
      rfl
    rw [Decimal.pointed, Decimal.plain, hinf]
    cases s with
    | positive => exact .inl rfl
    | negative => exact .inr (.inl rfl)
  | notANumber =>
    have hnan : Decimal.Binary64.ofFloat x = .notANumber := by
      rw [hfloat, hx]
      rfl
    rw [Decimal.pointed, Decimal.plain, hnan]
    exact .inr (.inr rfl)

theorem fails_point (rest : List Char) : Fails .directive ('.' :: rest) :=
  Scanner.fails_of_error fun _ => ⟨_, _, rfl⟩

/-- The word before the point is a name, the minus sign an operator, and the
point is nothing. -/
theorem fails_pointed {x : Float} (h : x.isFinite = false) (rest : List Char) :
    Fails .directive (' ' :: (Decimal.pointed x ++ rest)) := by
  have hpoint := fails_point ('0' :: rest)
  rcases pointed_of_not_isFinite h with htext | htext | htext <;> rw [htext]
  · have hname : Passes .directive (' ' :: ("inf.0".toList ++ rest)) [.name "inf"] .directive
        ('.' :: '0' :: rest) :=
      Passes.token rfl fun _ => ⟨_, rfl⟩
    exact hname.fails hpoint
  · have hminus : Passes .directive (' ' :: ("-inf.0".toList ++ rest)) [.operator '-'] .directive
        ("inf.0".toList ++ rest) :=
      Passes.token rfl fun _ => ⟨_, rfl⟩
    have hname : Passes .directive ("inf.0".toList ++ rest) [.name "inf"] .directive
        ('.' :: '0' :: rest) :=
      Passes.token rfl fun _ => ⟨_, rfl⟩
    exact hminus.fails (hname.fails hpoint)
  · have hname : Passes .directive (' ' :: ("NaN.0".toList ++ rest)) [.name "NaN"] .directive
        ('.' :: '0' :: rest) :=
      Passes.token rfl fun _ => ⟨_, rfl⟩
    exact hname.fails hpoint

/-! ### Sources of documents with such doubles -/

theorem Element.eq_double {e : Element} {x : Float} (hx : x ∈ e.doubles) : e = .double x := by
  cases e with
  | double y =>
    obtain rfl := List.mem_singleton.mp hx
    rfl
  | _ => cases hx

theorem fails_elements {es : List Element} (hes : ∀ e ∈ es, e.WellFormed)
    (hx : ¬ ∀ x ∈ es.flatMap Element.doubles, x.isFinite = true) {rest : List Char}
    (hrest : EndsWord rest) :
    Fails .directive ((es.map Element.chars).flatMap (' ' :: ·) ++ rest) := by
  induction es with
  | nil => exact absurd nofun hx
  | cons e es ih =>
    rw [List.map_cons, List.flatMap_cons, List.append_assoc]
    rw [List.flatMap_cons, List.forall_mem_append, not_and] at hx
    by_cases he : ∀ x ∈ e.doubles, x.isFinite = true
    · have hpass := (readsAs_spelling (.canonical e) (hes e List.mem_cons_self) he).passes
        isGap_space ((spaced_space (es.map Element.chars)).endsWord hrest)
      apply hpass.fails
      exact ih (fun e' he' => hes e' (List.mem_cons_of_mem e he')) (hx he)
    · push Not at he
      obtain ⟨x, hxe, hinfinite⟩ := he
      obtain rfl := Element.eq_double hxe
      exact fails_pointed (Bool.eq_false_iff.mpr hinfinite) _

theorem fails_directive {pieces : List (List Char)} {ts : List Token}
    (h : List.Forall₂ ReadsAs pieces ts) {es : List Element} (hes : ∀ e ∈ es, e.WellFormed)
    (hx : ¬ ∀ x ∈ es.flatMap Element.doubles, x.isFinite = true) (rest : List Char) :
    Fails .literal (directiveChars (pieces ++ es.map Element.chars) ++ rest) := by
  have hclose : EndsWord (' ' :: '$' :: '}' :: rest) := endsWord_cons isBlank_space
  have hfail := fails_elements hes hx hclose
  have hpieces := (spaced_space pieces).passes h
    ((spaced_space (es.map Element.chars)).endsWord hclose)
  have hopen := passes_open ((pieces.flatMap (' ' :: ·)) ++
    ((es.map Element.chars).flatMap (' ' :: ·) ++ ' ' :: '$' :: '}' :: rest))
  have hall := hopen.fails (hpieces.fails hfail)
  simpa [directiveChars] using hall

mutual

theorem fails_node {n : Node} (hn : n.WellFormed) (hx : ¬ ∀ x ∈ n.doubles, x.isFinite = true)
    (rest : List Char) : Fails .literal (n.chars ++ rest) := by
  cases n with
  | text s => exact absurd nofun hx
  | echo es =>
    have hequals : ReadsAs ['='] (.operator '=') := readsAs_operator (by decide)
    exact fails_directive (.cons hequals .nil) hn hx rest
  | loop h ns =>
    obtain ⟨hh, hsep, hns⟩ := hn
    rw [Node.doubles, List.forall_mem_append, not_and] at hx
    rw [Node.chars, List.append_assoc, List.append_assoc]
    by_cases hbounds : ∀ x ∈ h.bounds.flatMap Element.doubles, x.isFinite = true
    · obtain ⟨inner, -, hpass⟩ := h.spelling_pieces.passes hh hbounds
        (Node.allChars ns ++ (directiveChars [endKeyword.toList] ++ rest))
      apply hpass.fails
      apply fails_nodes hns hsep (hx hbounds)
      exact (laysOut_directiveChars _).endsText _
    · have hfor : ReadsAs forKeyword.toList (.name forKeyword) := readsAs_name (by decide)
      have hcounter := readsAs_name hh.counter
      rw [LoopHeader.pieces_eq]
      exact fails_directive (.cons hfor (.cons hcounter .nil)) (fun e he => (hh.bounds e he).2)
        hbounds _

theorem fails_nodes {ns : List Node} (hns : Node.AllWellFormed ns) (hsep : Node.Separated ns)
    (hx : ¬ ∀ x ∈ Node.allDoubles ns, x.isFinite = true) {rest : List Char}
    (hrest : EndsText rest) : Fails .literal (Node.allChars ns ++ rest) := by
  cases ns with
  | nil => exact absurd nofun hx
  | cons n ns =>
    obtain ⟨hn, hns⟩ := hns
    rw [Node.allDoubles, List.forall_mem_append, not_and] at hx
    rw [Node.allChars, List.append_assoc]
    by_cases hnode : ∀ x ∈ n.doubles, x.isFinite = true
    · obtain ⟨ts, hpass, -⟩ := standsFor_node (n.spelling_chars _) hn hnode fun htext =>
        (Node.allSpelling_allChars ns rest).endsText_after hsep htext hrest
      apply hpass.fails
      exact fails_nodes hns (List.isChain_cons.mp hsep).2 (hx hnode) hrest
    · exact fails_node hn hnode _

end

/-- The source of a document is refused if one of its doubles is not finite. -/
theorem parse_source_of_not_finite {d : Document} (h : d.WellFormed)
    (hx : ¬ ∀ x ∈ d.doubles, x.isFinite = true) : ∃ e, parse d.source = .error e := by
  have hfail := fails_nodes h.nodes h.separated hx (.inl rfl)
  rw [List.append_nil] at hfail
  have hstart : (Scanner.ofChars d.source.toList).Before .literal (Node.allChars d.nodes) :=
    ⟨rfl, String.toList_ofList, rfl⟩
  obtain ⟨e, he⟩ := Option.ne_none_iff_exists'.mp (hfail _ hstart)
  rw [parse, TokenStream.document]
  split
  · next e' _ => exact ⟨e', rfl⟩
  · exact ⟨.scan e, by rw [tokens, he]⟩

/-! ### An echo of one number -/

theorem parse_number {text : NumberText} (h : text.Valid) {x : Float}
    (hx : ∀ n, text.token n = .ok (.double x)) :
    parse (String.ofList (directiveChars [['='], text.chars])) = .ok ⟨[.echo [.double x]]⟩ := by
  have hequals : ReadsAs ['='] (.operator '=') := readsAs_operator (by decide)
  have hpass := (laysOut_directiveChars [['='], text.chars]).passes
    (.cons hequals (.cons (h.readsAs hx) .nil)) []
  rw [List.append_nil] at hpass
  rw [parse, tokens_of_passes hpass]
  rfl

theorem parse_padded : parse "\x7b$ = 007.50 $\x7d" = .ok ⟨[.echo [.double 7.5]]⟩ := by
  have hvalue : Decimal.ofScientific 750 (-2) = 7.5 := by decide +kernel
  apply @parse_number ⟨false, ['0', '0', '7'], some ['5', '0']⟩
  · constructor <;> simp
  · intro n
    rw [← hvalue]
    rfl

theorem parse_onePadded (zeros : Nat) :
    parse (String.ofList ("\x7b$ = ".toList ++ '1' :: List.replicate zeros '0' ++
        ".0 $\x7d".toList)) =
      .ok ⟨[.echo [.double (Decimal.ofScientific
        (Decimal.ofDigits ('1' :: List.replicate zeros '0' ++ ['0'])) (-1))]]⟩ := by
  let text : NumberText := ⟨false, '1' :: List.replicate zeros '0', some ['0']⟩
  have hvalid : text.Valid := by
    constructor
    · exact List.cons_ne_nil _ _
    · intro c hc
      rcases List.mem_cons.mp hc with rfl | hc
      · rfl
      · obtain rfl := List.eq_of_mem_replicate hc
        rfl
    · simp [text]
    · simp [text]
  have hread := parse_number hvalid fun n => rfl
  simpa [directiveChars, NumberText.chars, text] using hread

/-- A document that was read is read again from its canonical source, and so
written again as before, exactly if its doubles are finite. If one is not, the
source is refused. -/
theorem canonical_source_read_again_iff {source : String} {d : Document}
    (h : parse source = .ok d) :
    (parse d.source = .ok d ↔ ∀ x ∈ d.doubles, x.isFinite = true) ∧
      (∀ e, parse d.source = .ok e → e = d ∧ e.source = d.source) ∧
      ((¬ ∀ x ∈ d.doubles, x.isFinite = true) → ∃ e, parse d.source = .error e) := by
  have hread := parse_source_of_wellFormed (wellFormed_of_parse h)
  have hrefused := parse_source_of_not_finite (wellFormed_of_parse h)
  have hfinite {e : Document} (he : parse d.source = .ok e) :
      ∀ x ∈ d.doubles, x.isFinite = true := by
    by_contra hx
    obtain ⟨e', he'⟩ := hrefused hx
    rw [he] at he'
    cases he'
  refine ⟨⟨hfinite, hread⟩, ?_, hrefused⟩
  intro e he
  obtain rfl : d = e := by
    have hsame := hread (hfinite he)
    rw [he] at hsame
    exact (Except.ok.inj hsame).symm
  exact ⟨rfl, rfl⟩

/-- Zeros around a number are not written again. -/
theorem padded_number_read_again :
    let d : Document := ⟨[.echo [.double 7.5]]⟩
    parse "\x7b$ = 007.50 $\x7d" = .ok d ∧
      (parse d.source = .ok d ↔ ∀ x ∈ d.doubles, x.isFinite = true) ∧
      (∀ e, parse d.source = .ok e → e = d ∧ e.source = d.source) ∧
      ((¬ ∀ x ∈ d.doubles, x.isFinite = true) → ∃ e, parse d.source = .error e) :=
  ⟨parse_padded, canonical_source_read_again_iff parse_padded⟩

/-- A number beyond all doubles is read as infinity, which is not read again. -/
theorem endless_number_not_read_again :
    let source := String.ofList ("\x7b$ = ".toList ++ '1' :: List.replicate 310 '0' ++
      ".0 $\x7d".toList)
    ∃ d, parse source = .ok d ∧ parse d.source ≠ .ok d := by
  have hread := parse_onePadded 310
  have hinfinite : (Decimal.ofScientific
      (Decimal.ofDigits ('1' :: List.replicate 310 '0' ++ ['0'])) (-1)).isFinite = false := by
    decide +kernel
  refine ⟨_, hread, ?_⟩
  obtain ⟨e, he⟩ := parse_source_of_not_finite (wellFormed_of_parse hread) fun hfinite => by
    have hx := hfinite _ List.mem_cons_self
    rw [hinfinite] at hx
    cases hx
  rw [he]
  nofun

end PageServer.Template
