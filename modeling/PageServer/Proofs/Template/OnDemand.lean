import PageServer.Proofs.Template.Advancing
import PageServer.Proofs.Template.Layout

/-!
# Reading on demand

A document can be read by asking for each token only when it is needed, in one
loop over texts and directives and, within a directive, one over its elements or
bounds. Every turn of a loop takes a character or is the last one, so the loops end
on every template, and they come to what reading it as a whole comes to.
-/

namespace PageServer.Template

/-! ### Directives -/

namespace Partial

/-- One turn of reading a directive asks for a token and takes it. Then it goes on,
or there is an answer. -/
def turn (d : Partial) (s : Scanner) :
    (Partial × Scanner) ⊕ (Except ParseError Directive × Scanner) :=
  match s.next with
  | (.error e, s') => .inr (.error (.scan e), s')
  | (.ok t, s') =>
    match d.step t with
    | .ok (.inl d') => .inl (d', s')
    | .ok (.inr done) => .inr (.ok done, s')
    | .error e => .inr (.error e, s')

/-- The answer if it comes within so many turns. -/
def readWithin (d : Partial) : ℕ → Scanner → Option (Except ParseError Directive × Scanner)
  | 0, _ => none
  | n + 1, s =>
    match d.turn s with
    | .inl (d', s') => d'.readWithin n s'
    | .inr answer => some answer

theorem exists_step_endOfInput (d : Partial) : ∃ e, d.step .endOfInput = .error e := by
  cases d <;> exact ⟨_, rfl⟩

/-- Only the closing mark completes a directive, and it goes on after what is neither
that mark nor the end of the input. -/
theorem step_cases (d : Partial) (t : Token) :
    (∃ d', d.step t = .ok (.inl d') ∧ t ≠ .tagClose ∧ t.isEnd = false) ∨
      (∃ done, d.step t = .ok (.inr done) ∧ t = .tagClose) ∨ ∃ e, d.step t = .error e := by
  by_cases hclose : t = .tagClose
  · subst hclose
    rw [step_tagClose]
    cases d.finish [] with
    | ok done => exact .inr (.inl ⟨done, rfl, rfl⟩)
    | error e => exact .inr (.inr ⟨e, rfl⟩)
  by_cases hend : t = .endOfInput
  · subst hend
    exact .inr (.inr d.exists_step_endOfInput)
  rcases d.step_inner hclose with ⟨d', hstep, -⟩ | ⟨e, hstep, -⟩
  · exact .inl ⟨d', hstep, hclose, Token.isEnd_of_ne hend⟩
  · exact .inr (.inr ⟨e, hstep⟩)

/-- A turn takes a character or is the last one. -/
theorem turn_cases (d : Partial) (s : Scanner) :
    (∃ d' s', d.turn s = .inl (d', s') ∧ s.cursor.Reaches s'.cursor ∧
        s'.cursor.rest.length < s.cursor.rest.length) ∨
      ∃ answer, d.turn s = .inr answer ∧ s.cursor.Reaches answer.2.cursor := by
  cases hnext : s.next with
  | mk result s' =>
    have hreaches := (Scanner.outcome_of_next hnext).reaches
    cases result with
    | error e => exact .inr ⟨(.error (.scan e), s'), by rw [turn, hnext], hreaches⟩
    | ok t =>
      rcases d.step_cases t with ⟨d', hstep, -, hend⟩ | ⟨done, hstep, -⟩ | ⟨e, hstep⟩
      · have hshorter := Scanner.next_shorter hnext hend
        exact .inl ⟨d', s', by simp only [turn, hnext, hstep], hreaches, hshorter⟩
      · exact .inr ⟨(.ok done, s'), by simp only [turn, hnext, hstep], hreaches⟩
      · exact .inr ⟨(.error e, s'), by simp only [turn, hnext, hstep], hreaches⟩

/-- Wherever a directive is read on, there is an answer, which comes before there are
more turns than characters ahead. -/
theorem exists_readWithin (d : Partial) (s : Scanner) :
    ∃ answer, s.cursor.Reaches answer.2.cursor ∧
      ∀ n, s.cursor.rest.length < n → d.readWithin n s = some answer := by
  induction hlength : s.cursor.rest.length using Nat.strong_induction_on generalizing d s with
  | _ length ih =>
    subst hlength
    rcases d.turn_cases s with ⟨d', s', hturn, hreaches, hshorter⟩ | ⟨answer, hturn, hreaches⟩
    · obtain ⟨answer, hreaches', hanswer⟩ := ih _ hshorter d' s' rfl
      refine ⟨answer, hreaches.trans hreaches', fun n hn => ?_⟩
      obtain ⟨k, rfl⟩ := Nat.exists_eq_add_one_of_ne_zero (Nat.ne_zero_of_lt hn)
      rw [readWithin, hturn]
      exact hanswer k (by omega)
    · refine ⟨answer, hreaches, fun n hn => ?_⟩
      obtain ⟨k, rfl⟩ := Nat.exists_eq_add_one_of_ne_zero (Nat.ne_zero_of_lt hn)
      rw [readWithin, hturn]

end Partial

/-! ### Documents -/

namespace Reader

/-- Reads texts and directives up to the end of the input. Neither this loop nor one
within a directive makes more than so many turns. -/
def readWithin (r : Reader) : ℕ → Scanner → Option (Except ParseError Document)
  | 0, _ => none
  | n + 1, s =>
    match s.next with
    | (.error e, _) => some (.error (.scan e))
    | (.ok .endOfInput, _) => some r.finish
    | (.ok (.text text), s') => (r.add (.text text)).readWithin n s'
    | (.ok .tagOpen, s') =>
      match Partial.opened.readWithin n { s' with mode := .directive } with
      | some (.ok done, s'') =>
        match r.complete done with
        | .ok r' => r'.readWithin n { s'' with mode := .literal }
        | .error e => some (.error e)
      | some (.error e, _) => some (.error e)
      | none => none
    | (.ok t, _) => some (.error (.unexpectedToken t.kind))

/-! ### Comparison with reading all tokens first -/

/-- What the reader makes of the tokens that are still to come. -/
def documentOf (r : Reader) (ts : TokenStream) : Except ParseError Document :=
  match r.run ts.tokens with
  | .error e => .error e
  | .ok r' =>
    match ts.failure with
    | some e => .error (.scan e)
    | none => r'.finish

theorem documentOf_cons (r : Reader) (t : Token) (ts : TokenStream) :
    r.documentOf (ts.cons t) = match r.step t with
      | .ok r' => r'.documentOf ts
      | .error e => .error e := by
  rw [documentOf, TokenStream.cons, run]
  cases r.step t with
  | ok r' => rfl
  | error e => rfl

theorem documentOf_of_step_error {r : Reader} {s s' : Scanner} {t : Token} {e : ParseError}
    (hnext : s.next = (.ok t, s')) (hstep : r.step t = .error e) :
    r.documentOf s.drain = .error e := by
  obtain ⟨ts, hts⟩ : ∃ ts : TokenStream, s.drain = ts.cons t := by
    cases hend : t.isEnd with
    | true => exact ⟨⟨[], none⟩, Scanner.drain_of_end hnext hend⟩
    | false => exact ⟨_, Scanner.drain_of_ok hnext hend⟩
  rw [hts, documentOf_cons, hstep]

theorem directive_of_complete {r r' : Reader} {done : Directive} (h : r.complete done = .ok r') :
    r'.directive = none := by
  cases done with
  | echo es =>
    obtain rfl := Except.ok.inj h
    rfl
  | loop header =>
    obtain rfl := Except.ok.inj h
    rfl
  | close =>
    cases hloops : r.loops with
    | nil =>
      rw [complete, hloops] at h
      cases h
    | cons l ls =>
      rw [complete, hloops] at h
      obtain rfl := Except.ok.inj h
      rfl

theorem complete_inside (r : Reader) (d : Option Partial) (done : Directive) :
    Reader.complete { r with directive := d } done = r.complete done := by
  cases done <;> rfl

/-- What the reader makes of the tokens behind a directive that says this. -/
def documentAfter (r : Reader) (s : Scanner) :
    Except ParseError Directive → Except ParseError Document
  | .ok done =>
    match r.complete done with
    | .ok r' => r'.documentOf ({ s with mode := .literal } : Scanner).drain
    | .error e => .error e
  | .error e => .error e

/-- What comes of a directive comes of the tokens ahead of it. -/
theorem documentOf_of_directive {r : Reader} {d : Partial} {s s' : Scanner} {n : ℕ}
    {answer : Except ParseError Directive} (hmode : s.mode = .directive)
    (h : d.readWithin n s = some (answer, s')) :
    Reader.documentOf { r with directive := some d } s.drain = r.documentAfter s' answer := by
  -- one turn after the other: the reader takes the same token into the directive it has begun
  induction n generalizing d s with
  | zero => cases h
  | succ n ih =>
    rw [Partial.readWithin] at h
    cases hnext : s.next with
    | mk result s₁ =>
      cases result with
      | error e =>
        simp only [Partial.turn, hnext] at h
        obtain ⟨rfl, rfl⟩ := Prod.mk.inj (Option.some.inj h)
        rw [Scanner.drain_of_error hnext]
        rfl
      | ok t =>
        have hmode₁ : s₁.mode = .directive := (Scanner.next_kind hnext).1.trans hmode
        rcases d.step_cases t with ⟨d', hstep, hclose, hend⟩ | ⟨done, hstep, rfl⟩ | ⟨e, hstep⟩
        · simp only [Partial.turn, hnext, hstep] at h
          have hstay : ({ s₁ with mode := Scanner.modeAfter s₁.mode t } : Scanner) = s₁ := by
            rw [hmode₁, Layout.modeAfter_inner hclose, ← hmode₁]
          have hinside := step_inside (r := { r with directive := some d }) rfl hstep
          rw [Scanner.drain_of_ok hnext hend, documentOf_cons, hinside, hstay]
          exact ih hmode₁ h
        · simp only [Partial.turn, hnext, hstep] at h
          obtain ⟨rfl, rfl⟩ := Prod.mk.inj (Option.some.inj h)
          have hdone := step_done (r := { r with directive := some d }) rfl hstep
          rw [Scanner.drain_of_ok hnext rfl, documentOf_cons, hdone, complete_inside]
          rfl
        · simp only [Partial.turn, hnext, hstep] at h
          obtain ⟨rfl, rfl⟩ := Prod.mk.inj (Option.some.inj h)
          apply documentOf_of_step_error hnext
          simp only [step, hstep]

/-- The loops end, and they come to the document of all tokens. -/
theorem readWithin_eq {r : Reader} {s : Scanner} {n : ℕ} (hmode : s.mode = .literal)
    (hr : r.directive = none) (h : s.cursor.rest.length < n) :
    r.readWithin n s = some (r.documentOf s.drain) := by
  induction n generalizing r s with
  | zero => cases h
  | succ n ih =>
    cases hnext : s.next with
    | mk result s₁ =>
      cases result with
      | error e =>
        rw [readWithin, hnext, Scanner.drain_of_error hnext]
        rfl
      | ok t =>
        obtain ⟨hsame, hkind⟩ := Scanner.next_kind hnext
        rw [hmode] at hkind
        rcases hkind with ⟨text, rfl⟩ | rfl | rfl
        · have hshorter := Scanner.next_shorter hnext rfl
          rw [readWithin, hnext, Scanner.drain_of_ok hnext rfl, documentOf_cons, step_outside hr]
          exact ih (hsame.trans hmode) hr (by omega)
        · have hshorter := Scanner.next_shorter hnext rfl
          have hopen : r.step .tagOpen = .ok { r with directive := some .opened } :=
            step_outside hr
          obtain ⟨⟨answer, s₂⟩, hreaches, hanswer⟩ :=
            Partial.opened.exists_readWithin { s₁ with mode := .directive }
          have hle : s₂.cursor.rest.length ≤ s₁.cursor.rest.length := hreaches.length_le
          -- the mark has taken characters, so the turns left are enough for what is behind it
          have hinner := hanswer n (Nat.lt_of_lt_of_le hshorter (Nat.le_of_lt_succ h))
          have hafter := documentOf_of_directive (r := r) rfl hinner
          rw [Scanner.drain_of_ok hnext rfl, documentOf_cons, hopen]
          refine Eq.trans ?_ (congrArg some hafter.symm)
          simp only [readWithin, hnext, hinner]
          cases answer with
          | error e => rfl
          | ok done =>
            rw [documentAfter]
            cases hcomplete : r.complete done with
            | error e => simp only [hcomplete]
            | ok r' =>
              have hbehind : s₂.cursor.rest.length < n := by omega
              simp only [hcomplete]
              exact ih rfl (directive_of_complete hcomplete) hbehind
        · rw [readWithin, hnext, Scanner.drain_of_end hnext rfl, documentOf,
            run_cons (step_outside hr)]
          rfl

end Reader

/-- A template is read on demand as it is read as a whole, and no loop makes more turns
than there are characters, and a last one. -/
theorem readWithin_eq_parse (source : String) {n : ℕ} (h : source.length < n) :
    Reader.start.readWithin n (Scanner.ofChars source.toList) = some (parse source) :=
  Reader.readWithin_eq rfl rfl (String.length_toList ▸ h)

/-! ### Progress -/

/-- A scanner that is called in any order, in either mode and past its errors. It stands
within the template, before the characters it has not read, and never moves back. A token
other than the end of the input moves it on, no text is empty, and texts, opening marks and
the end are what comes outside directives, where nothing else comes. There are no more
tokens than characters, the end aside, and after the end there is none. So a directive,
however much of it was read before, comes to an answer from wherever the scanner stands, in
no more turns than characters are ahead and a last one; and so does every template, its
answer being what it is parsed as. -/
theorem scanner_progresses (source : String) (calls : List Scanner.Call) :
    let s := (Scanner.ofChars source.toList).after calls
    let answers := (Scanner.ofChars source.toList).answers calls
    s.cursor.offset ≤ source.length ∧ s.cursor.rest = source.toList.drop s.cursor.offset ∧
    (∀ more, s.cursor.offset ≤ (s.after more).cursor.offset) ∧
    (∀ t s', s.next = (.ok t, s') →
      (t ≠ .endOfInput → s.cursor.offset < s'.cursor.offset) ∧ t ≠ .text "" ∧
      (t.kind.isOutside = true ↔ s.mode = .literal)) ∧
    answers.countP Except.isOk ≤ source.length + 1 ∧
    (.ok .endOfInput ∈ answers → ∀ more, ∀ r ∈ s.answers more, r = .error .exhausted) ∧
    (∀ d : Partial, ∃ answer, ∀ n, source.length - s.cursor.offset < n →
      d.readWithin n s = some answer) ∧
    ∀ n, source.length < n →
      Reader.start.readWithin n (Scanner.ofChars source.toList) = some (parse source) := by
  intro s answers
  obtain ⟨hle, hrest⟩ := ((Scanner.ofChars source.toList).after_reaches calls).of_beginning
  rw [String.length_toList] at hle
  refine ⟨hle, hrest, fun more => (s.after_reaches more).offset_le, ?_, ?_, ?_, ?_,
    fun n => readWithin_eq_parse source⟩
  · intro t s' hnext
    obtain ⟨hlex, hkind⟩ := (Scanner.outcome_of_next hnext).shape
    refine ⟨Scanner.offset_lt_of_next hnext, ?_, hkind⟩
    rintro rfl
    exact hlex rfl
  · have hroom := (Scanner.ofChars source.toList).room_after_add_le calls
    have hstart : (Scanner.ofChars source.toList).room = source.length + 1 :=
      congrArg (· + 1) String.length_toList
    exact (Nat.le_add_left _ _).trans (hstart ▸ hroom)
  · exact fun hend => Scanner.exhausted_of_atEnd (Scanner.atEnd_of_mem_answers hend)
  · intro d
    obtain ⟨answer, -, hanswer⟩ := d.exists_readWithin s
    refine ⟨answer, fun n hn => hanswer n ?_⟩
    rwa [hrest, List.length_drop, String.length_toList]

/-- A directive is asked for where there is none, and the scanner goes on as text from the
character it could not read. -/
theorem scanner_progresses_after_mistake :
    let start := Scanner.ofChars "  ?\x7b$".toList
    let mistaken := start.after [.enter .directive, .next, .enter .literal]
    let calls := [.enter .directive, .next, .enter .literal, .next, .next, .next]
    (∃ s', mistaken.next = (.ok (.text "?"), s') ∧
      mistaken.cursor.offset < s'.cursor.offset) ∧
    .ok .endOfInput ∈ start.answers calls ∧ (start.answers calls).countP Except.isOk ≤ 6 ∧
    (∀ more, ∀ r ∈ (start.after calls).answers more, r = .error .exhausted) ∧
    (∃ answer, Partial.readWithin (.echo []) 4 mistaken = some answer) ∧
    Reader.start.readWithin 6 start = some (parse "  ?\x7b$") := by
  intro start mistaken calls
  have htext : mistaken.next = (.ok (.text "?"), mistaken.next.2) := rfl
  have hend : .ok .endOfInput ∈ start.answers calls := .tail _ (.tail _ (.tail _ (.head _)))
  obtain ⟨-, -, -, hnext, -, -, hdirective, -⟩ :=
    scanner_progresses "  ?\x7b$" [.enter .directive, .next, .enter .literal]
  obtain ⟨-, -, -, -, hcount, hexhausted, -, hparse⟩ := scanner_progresses "  ?\x7b$" calls
  obtain ⟨answer, hanswer⟩ := hdirective (.echo [])
  refine ⟨⟨_, htext, (hnext _ _ htext).1 nofun⟩, hend, hcount, hexhausted hend, ?_, ?_⟩
  · exact ⟨answer, hanswer 4 (by decide)⟩
  · exact hparse 6 (by decide)

end PageServer.Template
