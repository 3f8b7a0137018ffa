import PageServer.Proofs.Template.Pieces

/-!
# Spellings of a document

A document may be written in many ways. There may be any white space between the
pieces of a directive, and a brace of a text needs its backslash only where a
directive would begin. Whichever way is taken, the same document is read.
-/

namespace PageServer.Template

open Text (isBlank)
open Scanner (Passes)

/-! ### Texts -/

/-- The ways of writing a text before some other characters. -/
inductive TextSpelling (rest : List Char) : List Char → List Char → Prop
  | nil : TextSpelling rest [] []
  | plain {c : Char} {text cs : List Char} (hc : c ≠ '\\' ∧ c ≠ '{')
      (h : TextSpelling rest text cs) : TextSpelling rest (c :: text) (c :: cs)
  | escaped {c : Char} {text cs : List Char} (hc : c = '\\' ∨ c = '{')
      (h : TextSpelling rest text cs) : TextSpelling rest (c :: text) ('\\' :: c :: cs)
  | brace {text cs : List Char} (hnext : (cs ++ rest).head? ≠ some '$')
      (h : TextSpelling rest text cs) : TextSpelling rest ('{' :: text) ('{' :: cs)

theorem textSpelling_escapeText (text rest : List Char) :
    TextSpelling rest text (escapeText text) := by
  induction text with
  | nil => exact .nil
  | cons c text ih =>
    rcases escapeText_cons c text with ⟨hescape, hesc⟩ | ⟨hslash, hbrace, hesc⟩
    · rw [hesc]
      exact .escaped hescape ih
    · rw [hesc]
      exact .plain ⟨hslash, hbrace⟩ ih

theorem scanText_brace {cs : List Char} (h : cs.head? ≠ some '$') (n : Nat) (acc : List Char) :
    scanText ('{' :: cs) n acc = scanText cs (n + 1) ('{' :: acc) := by
  cases cs with
  | nil => rfl
  | cons c cs =>
    have hc : c ≠ '$' := fun hc => h (congrArg some hc)
    simp [scanText, hc]

theorem TextSpelling.scanText {text cs rest : List Char} (h : TextSpelling rest text cs)
    (hrest : EndsText rest) (n : Nat) (acc : List Char) :
    scanText (cs ++ rest) n acc =
      (.ok (.text (String.ofList (acc.reverse ++ text))), ⟨rest, n + cs.length⟩) := by
  induction h generalizing n acc with
  | nil => simpa using scanText_of_endsText hrest n acc
  | plain hc h ih =>
    simp [Template.scanText, hc, ih]
    omega
  | escaped hc h ih =>
    simp [Template.scanText, hc, ih]
    omega
  | brace hnext h ih =>
    rw [List.cons_append, scanText_brace hnext, ih]
    simp
    omega

theorem scanLiteral_eq_scanText {cs : List Char} (hne : cs ≠ [])
    (hopen : ∀ rest, cs ≠ '{' :: '$' :: rest) (n : Nat) :
    scanLiteral ⟨cs, n⟩ = scanText cs n [] := by
  rw [scanLiteral]
  split
  · next hnil => exact absurd hnil hne
  · next rest hcs => exact absurd hcs (hopen rest)
  · rfl

/-- No spelling of a text begins like a directive. -/
theorem TextSpelling.not_open {text cs rest : List Char} (h : TextSpelling rest text cs)
    (hne : text ≠ []) (more : List Char) : cs ++ rest ≠ '{' :: '$' :: more := by
  cases h with
  | nil => exact absurd rfl hne
  | plain hc h => exact fun heq => hc.2 (List.cons.inj heq).1
  | escaped hc h => nofun
  | @brace text cs hnext h =>
    intro heq
    have htail : cs ++ rest = '$' :: more := (List.cons.inj heq).2
    rw [htail] at hnext
    exact hnext rfl

theorem TextSpelling.ne_nil {text cs rest : List Char} (h : TextSpelling rest text cs)
    (hne : text ≠ []) : cs ≠ [] := by
  cases h with
  | nil => exact absurd rfl hne
  | plain hc h => exact List.cons_ne_nil _ _
  | escaped hc h => exact List.cons_ne_nil _ _
  | brace hnext h => exact List.cons_ne_nil _ _

theorem TextSpelling.passes {text : String} {cs rest : List Char}
    (h : TextSpelling rest text.toList cs) (hne : text ≠ "") (hrest : EndsText rest) :
    Passes .literal (cs ++ rest) [.text text] .literal rest := by
  apply Passes.token rfl
  intro n
  have htext : text.toList ≠ [] := mt String.toList_eq_nil_iff.mp hne
  have hcs : cs ++ rest ≠ [] := List.append_ne_nil_of_left_ne_nil (h.ne_nil htext) rest
  have hscan := h.scanText hrest n []
  rw [List.reverse_nil, List.nil_append, String.ofList_toList] at hscan
  exact ⟨_, (scanLiteral_eq_scanText hcs (h.not_open htext) n).trans hscan⟩

/-! ### Directives -/

/-- White space, at least one character of it. -/
structure IsGap (cs : List Char) : Prop where
  ne_nil : cs ≠ []
  blank : ∀ c ∈ cs, isBlank c = true

instance : DecidablePred IsGap := fun cs =>
  decidable_of_iff (cs ≠ [] ∧ cs.all isBlank = true)
    ⟨fun ⟨hne, hall⟩ => ⟨hne, List.all_eq_true.mp hall⟩,
      fun h => ⟨h.ne_nil, List.all_eq_true.mpr h.blank⟩⟩

/-- Pieces with a gap before each of them. -/
inductive Spaced : List (List Char) → List Char → Prop
  | nil : Spaced [] []
  | cons {gap piece cs : List Char} {pieces : List (List Char)} (hgap : IsGap gap)
      (hcs : Spaced pieces cs) : Spaced (piece :: pieces) (gap ++ (piece ++ cs))

/-- A directive with these pieces. -/
def LaysOut (pieces : List (List Char)) (cs : List Char) : Prop :=
  ∃ inner gap, Spaced pieces inner ∧ IsGap gap ∧ cs = '{' :: '$' :: (inner ++ (gap ++ ['$', '}']))

theorem isBlank_space : isBlank ' ' = true := by
  decide

theorem isGap_space : IsGap [' '] := by
  decide

theorem spaced_space (pieces : List (List Char)) : Spaced pieces (pieces.flatMap (' ' :: ·)) := by
  induction pieces with
  | nil => exact .nil
  | cons piece pieces ih => exact .cons isGap_space ih

theorem laysOut_directiveChars (pieces : List (List Char)) :
    LaysOut pieces (directiveChars pieces) :=
  ⟨_, [' '], spaced_space pieces, isGap_space, rfl⟩

theorem IsGap.endsWord {gap : List Char} (h : IsGap gap) (cs : List Char) :
    EndsWord (gap ++ cs) := by
  obtain ⟨c, gap, rfl⟩ := List.exists_cons_of_ne_nil h.ne_nil
  exact endsWord_cons (h.blank c List.mem_cons_self)

theorem Spaced.endsWord {pieces : List (List Char)} {cs rest : List Char} (h : Spaced pieces cs)
    (hrest : EndsWord rest) : EndsWord (cs ++ rest) := by
  cases h with
  | nil => exact hrest
  | cons hgap hcs =>
    rw [List.append_assoc]
    exact hgap.endsWord _

theorem ReadsAs.passes {piece gap : List Char} {t : Token} (h : ReadsAs piece t) (hgap : IsGap gap)
    {rest : List Char} (hrest : EndsWord rest) :
    Passes .directive (gap ++ (piece ++ rest)) [t] .directive rest := by
  have htoken : Passes .directive (gap ++ (piece ++ rest)) [t]
      (Scanner.modeAfter .directive t) rest := by
    apply Passes.token h.notEnd
    intro n
    obtain ⟨n', hscan⟩ := h.scan rest hrest (n + gap.length)
    exact ⟨n', (scanDirective_append hgap.blank _ n).trans hscan⟩
  rwa [h.inside] at htoken

theorem Spaced.passes {pieces : List (List Char)} {ts : List Token} {cs rest : List Char}
    (hcs : Spaced pieces cs) (h : List.Forall₂ ReadsAs pieces ts) (hrest : EndsWord rest) :
    Passes .directive (cs ++ rest) ts .directive rest := by
  -- a piece ends where the gap before the next one stands, or where the rest begins
  induction hcs generalizing ts with
  | nil =>
    cases h
    exact Passes.refl _ _
  | @cons gap piece cs pieces hgap hcs ih =>
    cases h with
    | cons hpiece hpieces =>
      rw [List.append_assoc, List.append_assoc]
      exact (hpiece.passes hgap (hcs.endsWord hrest)).trans (ih hpieces)

theorem passes_open (rest : List Char) :
    Passes .literal ('{' :: '$' :: rest) [.tagOpen] .directive rest :=
  Passes.token rfl fun n => ⟨n + 2, rfl⟩

theorem passes_close {gap : List Char} (hgap : IsGap gap) (rest : List Char) :
    Passes .directive (gap ++ '$' :: '}' :: rest) [.tagClose] .literal rest := by
  apply Passes.token rfl
  intro n
  exact ⟨_, (scanDirective_append hgap.blank _ n).trans (scanDirective_close rest _)⟩

theorem LaysOut.passes {pieces : List (List Char)} {ts : List Token} {cs : List Char}
    (hcs : LaysOut pieces cs) (h : List.Forall₂ ReadsAs pieces ts) (rest : List Char) :
    Passes .literal (cs ++ rest) (directiveTokens ts) .literal rest := by
  obtain ⟨inner, gap, hinner, hgap, rfl⟩ := hcs
  have hclose := passes_close hgap rest
  have hpieces := hinner.passes h (hgap.endsWord ('$' :: '}' :: rest))
  have hopen := passes_open (inner ++ (gap ++ '$' :: '}' :: rest))
  have hall := hopen.trans (hpieces.trans hclose)
  simpa [directiveTokens] using hall

theorem LaysOut.endsText {pieces : List (List Char)} {cs : List Char} (h : LaysOut pieces cs)
    (rest : List Char) : EndsText (cs ++ rest) := by
  obtain ⟨inner, gap, -, -, rfl⟩ := h
  exact .inr ⟨_, rfl⟩

/-! ### Documents -/

/-- The ways of opening a loop. -/
def LoopHeader.Spelling (h : LoopHeader) (cs : List Char) : Prop :=
  ∃ word pieces, spells forKeyword word = true ∧
    List.Forall₂ Element.Spelling (.name h.counter :: h.bounds) pieces ∧
    LaysOut (word :: pieces) cs

/-- The ways of closing a loop. -/
def ClosesLoop (cs : List Char) : Prop :=
  ∃ word, spells endKeyword word = true ∧ LaysOut [word] cs

mutual

/-- The ways of writing a node before some other characters. -/
def Node.Spelling : Node → List Char → List Char → Prop
  | .text s, rest, cs => TextSpelling rest s.toList cs
  | .echo es, _, cs =>
    ∃ pieces, List.Forall₂ Element.Spelling es pieces ∧ LaysOut (['='] :: pieces) cs
  | .loop h ns, rest, cs => ∃ opening body closing, h.Spelling opening ∧ ClosesLoop closing ∧
      Node.AllSpelling ns (closing ++ rest) body ∧ cs = opening ++ (body ++ closing)

def Node.AllSpelling : List Node → List Char → List Char → Prop
  | [], _, cs => cs = []
  | n :: ns, rest, cs => ∃ first more, Node.Spelling n (more ++ rest) first ∧
      Node.AllSpelling ns rest more ∧ cs = first ++ more

end

/-- The ways of writing a document. -/
def Document.Spelling (d : Document) (source : String) : Prop :=
  Node.AllSpelling d.nodes [] source.toList

/-! ### Reading -/

theorem LoopHeader.Spelling.passes {h : LoopHeader} {cs : List Char} (hcs : h.Spelling cs)
    (hh : h.WellFormed) (hx : ∀ x ∈ h.bounds.flatMap Element.doubles, x.isFinite = true)
    (rest : List Char) : ∃ inner, Directive.Reads inner (.loop h) ∧
      Passes .literal (cs ++ rest) (directiveTokens inner) .literal rest := by
  obtain ⟨word, pieces, hword, hpieces, hlays⟩ := hcs
  have helements : ∀ e ∈ Element.name h.counter :: h.bounds, e.WellFormed :=
    List.forall_mem_cons.mpr ⟨hh.counter, fun e he => (hh.bounds e he).2⟩
  have hheader := List.Forall₂.cons (readsAs_forKeyword hword)
    (readsAs_spellings hpieces helements hx)
  refine ⟨_, ?_, hlays.passes hheader rest⟩
  apply Directive.Reads.loop
  · rwa [String.toList_ofList]
  · exact fun e he => (hh.bounds e he).1

theorem ClosesLoop.passes {cs : List Char} (hcs : ClosesLoop cs) (rest : List Char) :
    Passes .literal (cs ++ rest) (directiveTokens [.name endKeyword]) .literal rest := by
  obtain ⟨word, hword, hlays⟩ := hcs
  exact hlays.passes (.cons (readsAs_endKeyword hword) .nil) rest

theorem ClosesLoop.endsText {cs : List Char} (hcs : ClosesLoop cs) (rest : List Char) :
    EndsText (cs ++ rest) := by
  obtain ⟨word, -, hlays⟩ := hcs
  exact hlays.endsText rest

/-- Characters are read as these nodes, whatever was read before. -/
def StandsFor (cs rest : List Char) (ns : List Node) : Prop :=
  ∃ ts, Passes .literal (cs ++ rest) ts .literal rest ∧
    ∀ before loops, Reader.run ⟨before, loops, none⟩ ts = .ok ⟨ns.reverse ++ before, loops, none⟩

namespace StandsFor

variable {cs ds rest : List Char} {ns ms : List Node}

theorem nil (rest : List Char) : StandsFor [] rest [] :=
  ⟨[], Passes.refl _ _, fun _ _ => rfl⟩

theorem append (h : StandsFor cs (ds ++ rest) ns) (h' : StandsFor ds rest ms) :
    StandsFor (cs ++ ds) rest (ns ++ ms) := by
  obtain ⟨ts, hpass, hrun⟩ := h
  obtain ⟨us, hpass', hrun'⟩ := h'
  refine ⟨ts ++ us, ?_, ?_⟩
  · rw [List.append_assoc]
    exact hpass.trans hpass'
  · intro before loops
    rw [Reader.run_append_of_ok (hrun before loops), hrun', List.reverse_append, List.append_assoc]

/-- Nodes between the opening and the closing of a loop are its body. -/
theorem loop {h : LoopHeader} {opening closing : List Char} (hh : h.WellFormed)
    (hx : ∀ x ∈ h.bounds.flatMap Element.doubles, x.isFinite = true)
    (hopening : h.Spelling opening) (hclosing : ClosesLoop closing)
    (hbody : StandsFor cs (closing ++ rest) ns) :
    StandsFor (opening ++ (cs ++ closing)) rest [.loop h ns] := by
  obtain ⟨inner, hinner, hopen⟩ := hopening.passes hh hx (cs ++ (closing ++ rest))
  obtain ⟨ts, hpass, hrun⟩ := hbody
  have hall := hopen.trans (hpass.trans (hclosing.passes rest))
  rw [← List.append_assoc cs, ← List.append_assoc opening] at hall
  refine ⟨_, hall, ?_⟩
  intro before loops
  have hopened : Reader.run ⟨before, loops, none⟩ (directiveTokens inner) =
      .ok ⟨[], ⟨h, before⟩ :: loops, none⟩ := Reader.run_reads hinner rfl rfl
  rw [Reader.run_append_of_ok hopened, Reader.run_append_of_ok (hrun _ _), List.append_nil]
  apply Reader.run_reads .close rfl
  rw [Reader.complete, List.reverse_reverse]
  rfl

theorem echo {es : List Element} {pieces : List (List Char)} (h : ∀ e ∈ es, e.WellFormed)
    (hx : ∀ x ∈ es.flatMap Element.doubles, x.isFinite = true)
    (hpieces : List.Forall₂ Element.Spelling es pieces) (hcs : LaysOut (['='] :: pieces) cs)
    (rest : List Char) : StandsFor cs rest [.echo es] := by
  have hequals : ReadsAs ['='] (.operator '=') := readsAs_operator (by decide)
  refine ⟨_, hcs.passes (.cons hequals (readsAs_spellings hpieces h hx)) rest, ?_⟩
  intro before loops
  exact Reader.run_reads (.echo fun e he => (h e he).ne_assign) rfl rfl

theorem text {s : String} (hne : s ≠ "") (hcs : TextSpelling rest s.toList cs)
    (hrest : EndsText rest) : StandsFor cs rest [.text s] :=
  ⟨_, hcs.passes hne hrest, fun _ _ => rfl⟩

theorem parse (h : StandsFor cs [] ns) : parse (String.ofList cs) = .ok ⟨ns⟩ := by
  obtain ⟨ts, hpass, hrun⟩ := h
  rw [List.append_nil] at hpass
  have hend : Reader.start.run (ts ++ [.endOfInput]) = .ok ⟨ns.reverse, [], none⟩ := by
    rw [Reader.start, Reader.run_append_of_ok (hrun [] []), List.append_nil]
    rfl
  rw [Template.parse, tokens_of_passes hpass, TokenStream.document]
  simp only [hend, Reader.finish, List.reverse_reverse]

end StandsFor

/-- What is no text begins with a directive. -/
theorem Node.AllSpelling.endsText {ns : List Node} {rest cs : List Char}
    (hcs : Node.AllSpelling ns rest cs) (h : ∀ n ∈ ns.head?, n.isText = false)
    (hrest : EndsText rest) : EndsText (cs ++ rest) := by
  cases ns with
  | nil =>
    obtain rfl := hcs
    exact hrest
  | cons n ns =>
    obtain ⟨first, more, hn, -, rfl⟩ := hcs
    have htext := h n rfl
    cases n with
    | text s => cases htext
    | echo es =>
      obtain ⟨pieces, -, hlays⟩ := hn
      rw [List.append_assoc]
      exact hlays.endsText _
    | loop h ns =>
      obtain ⟨opening, body, closing, ⟨_, _, _, _, hlays⟩, -, -, rfl⟩ := hn
      rw [List.append_assoc, List.append_assoc]
      exact hlays.endsText _

/-- What follows a text among separated nodes ends it. -/
theorem Node.AllSpelling.endsText_after {n : Node} {ns : List Node} {rest cs : List Char}
    (hcs : Node.AllSpelling ns rest cs) (hsep : Node.Separated (n :: ns)) (htext : n.isText = true)
    (hrest : EndsText rest) : EndsText (cs ++ rest) := by
  apply hcs.endsText _ hrest
  intro m hm
  cases hmt : m.isText with
  | false => rfl
  | true => exact absurd ⟨htext, hmt⟩ ((List.isChain_cons.mp hsep).1 m hm)

mutual

theorem standsFor_node {n : Node} {rest cs : List Char} (hcs : n.Spelling rest cs)
    (hn : n.WellFormed) (hx : ∀ x ∈ n.doubles, x.isFinite = true)
    (hrest : n.isText = true → EndsText rest) : StandsFor cs rest [n] := by
  cases n with
  | text s => exact .text hn hcs (hrest rfl)
  | echo es =>
    obtain ⟨pieces, hpieces, hlays⟩ := hcs
    exact .echo hn hx hpieces hlays rest
  | loop h ns =>
    obtain ⟨opening, body, closing, hopening, hclosing, hbody, rfl⟩ := hcs
    obtain ⟨hh, hsep, hns⟩ := hn
    rw [Node.doubles, List.forall_mem_append] at hx
    have hinside := standsFor_nodes hbody hns hsep hx.2 (hclosing.endsText rest)
    exact .loop hh hx.1 hopening hclosing hinside

theorem standsFor_nodes {ns : List Node} {rest cs : List Char} (hcs : Node.AllSpelling ns rest cs)
    (hns : Node.AllWellFormed ns) (hsep : Node.Separated ns)
    (hx : ∀ x ∈ Node.allDoubles ns, x.isFinite = true) (hrest : EndsText rest) :
    StandsFor cs rest ns := by
  cases ns with
  | nil =>
    obtain rfl := hcs
    exact .nil rest
  | cons n ns =>
    obtain ⟨first, more, hfirst, hmore, rfl⟩ := hcs
    obtain ⟨hn, hns⟩ := hns
    rw [Node.allDoubles, List.forall_mem_append] at hx
    have hnode := standsFor_node hfirst hn hx.1 fun htext => hmore.endsText_after hsep htext hrest
    have hnodes := standsFor_nodes hmore hns (List.isChain_cons.mp hsep).2 hx.2 hrest
    exact hnode.append hnodes

end

/-- However a well-formed document is written, it is read as itself. -/
theorem parse_of_spelling {d : Document} {source : String} (hsource : d.Spelling source)
    (h : d.WellFormed) (hx : ∀ x ∈ d.doubles, x.isFinite = true) : parse source = .ok d := by
  have hparse := (standsFor_nodes hsource h.nodes h.separated hx (.inl rfl)).parse
  rwa [String.ofList_toList] at hparse

/-! ### The canonical source -/

theorem LoopHeader.pieces_eq (h : LoopHeader) :
    h.pieces = forKeyword.toList :: h.counter.toList :: h.bounds.map Element.chars := by
  cases hstep : h.step <;> simp [pieces, bounds, hstep]

theorem Element.spelling_chars (es : List Element) :
    List.Forall₂ Element.Spelling es (es.map Element.chars) := by
  rw [List.forall₂_map_right_iff, List.forall₂_same]
  exact fun e _ => .canonical e

theorem LoopHeader.spelling_pieces (h : LoopHeader) : h.Spelling (directiveChars h.pieces) := by
  rw [LoopHeader.pieces_eq]
  exact ⟨_, _, by decide, Element.spelling_chars (.name h.counter :: h.bounds),
    laysOut_directiveChars _⟩

theorem closesLoop_endKeyword : ClosesLoop (directiveChars [endKeyword.toList]) :=
  ⟨_, by decide, laysOut_directiveChars _⟩

mutual

theorem Node.spelling_chars (n : Node) (rest : List Char) : n.Spelling rest n.chars := by
  cases n with
  | text s => exact textSpelling_escapeText _ _
  | echo es => exact ⟨_, Element.spelling_chars es, laysOut_directiveChars _⟩
  | loop h ns =>
    exact ⟨_, _, _, h.spelling_pieces, closesLoop_endKeyword, Node.allSpelling_allChars ns _, rfl⟩

theorem Node.allSpelling_allChars (ns : List Node) (rest : List Char) :
    Node.AllSpelling ns rest (Node.allChars ns) := by
  cases ns with
  | nil => rfl
  | cons n ns =>
    exact ⟨n.chars, Node.allChars ns, Node.spelling_chars n _, Node.allSpelling_allChars ns rest,
      rfl⟩

end

theorem Document.spelling_source (d : Document) : d.Spelling d.source := by
  have hspelling := Node.allSpelling_allChars d.nodes []
  rwa [Document.Spelling, Document.source, String.toList_ofList]

end PageServer.Template
