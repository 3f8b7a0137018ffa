import PageServer.Proofs.Failures
import PageServer.Proofs.Template.WellFormed
import PageServer.Template.Parser

/-!
# Directives taken alone

What the tokens between the marks of a directive say, and the first mistake
among them if they say nothing. The reader, which takes them one at a time,
comes to the same result, and a directive that is never closed is refused
exactly if no continuation could save it.
-/

namespace PageServer.Template

namespace Element

/-- An element inside a directive. -/
def token : Element → Token
  | name s => .name s
  | integer v => .integer v
  | double x => .double x
  | string s => .string s
  | function s => .function s
  | operator c => .operator c

@[simp] theorem ofToken?_token (e : Element) : ofToken? e.token = some e := by
  cases e <;> rfl

/-- The element that a token of an echo is. -/
def ofEchoed (t : Token) : Except ParseError Element :=
  match ofToken? t with
  | some (.operator '=') => .error .assignInEcho
  | some e => .ok e
  | none => .error (.unexpectedToken t.kind)

/-- The bound that a token of a loop header is. -/
def ofBound (t : Token) : Except ParseError Element :=
  match ofToken? t with
  | some e => if e.isBound then .ok e else .error (.invalidLoopArgument t.kind)
  | none => .error (.invalidLoopArgument t.kind)

theorem eq_token_of_ofToken? {t : Token} {e : Element} (h : ofToken? t = some e) :
    t = e.token := by
  cases t <;> cases h <;> rfl

theorem ofEchoed_eq_ok_iff (t : Token) (e : Element) :
    ofEchoed t = .ok e ↔ t = e.token ∧ e ≠ .operator '=' := by
  constructor
  · intro h
    unfold ofEchoed at h
    split at h
    · cases h
    · next hassign he =>
      obtain rfl := Except.ok.inj h
      refine ⟨eq_token_of_ofToken? he, ?_⟩
      rintro rfl
      exact hassign rfl
    · cases h
  · rintro ⟨rfl, hassign⟩
    unfold ofEchoed
    rw [ofToken?_token]
    split
    · next h => exact absurd (Option.some.inj h) hassign
    · next h => exact congrArg Except.ok (Option.some.inj h).symm
    · next h => cases h

theorem ofBound_eq_ok_iff (t : Token) (e : Element) :
    ofBound t = .ok e ↔ t = e.token ∧ e.isBound = true := by
  constructor
  · intro h
    unfold ofBound at h
    split at h
    · next he =>
      split at h
      · next hbound =>
        obtain rfl := Except.ok.inj h
        exact ⟨eq_token_of_ofToken? he, hbound⟩
      · cases h
    · cases h
  · rintro ⟨rfl, hbound⟩
    simp only [ofBound, ofToken?_token, hbound, if_true]

/-- Tokens that are all taken are the tokens of the elements. -/
theorem mapM_eq_ok_iff {f : Token → Except ParseError Element} {P : Element → Prop}
    (hf : ∀ t e, f t = .ok e ↔ t = e.token ∧ P e) (ts : List Token) (es : List Element) :
    ts.mapM f = .ok es ↔ ts = es.map token ∧ ∀ e ∈ es, P e := by
  induction ts generalizing es with
  | nil => cases es <;> simp [pure, Except.pure]
  | cons t ts ih =>
    simp only [List.mapM_cons, bind_eq_ok_iff, hf, ih]
    constructor
    · rintro ⟨e, ⟨rfl, he⟩, es', ⟨rfl, hes'⟩, hes⟩
      obtain rfl : e :: es' = es := Except.ok.inj hes
      exact ⟨rfl, List.forall_mem_cons.mpr ⟨he, hes'⟩⟩
    · rintro ⟨hts, hes⟩
      cases es with
      | nil => cases hts
      | cons e es =>
        obtain ⟨rfl, rfl⟩ := List.cons.inj hts
        obtain ⟨he, hes⟩ := List.forall_mem_cons.mp hes
        exact ⟨e, ⟨rfl, he⟩, es, ⟨rfl, hes⟩, rfl⟩

end Element

def directiveTokens (ts : List Token) : List Token :=
  .tagOpen :: (ts ++ [.tagClose])

theorem LoopHeader.ofBounds_eq_ok_iff (counter : String) (bs : List Element) (h : LoopHeader) :
    ofBounds counter bs = .ok h ↔ h.counter = counter ∧ h.bounds = bs := by
  constructor
  · intro hof
    unfold ofBounds at hof
    split at hof
    · obtain rfl := Except.ok.inj hof
      exact ⟨rfl, rfl⟩
    · obtain rfl := Except.ok.inj hof
      exact ⟨rfl, rfl⟩
    · cases hof
  · rintro ⟨rfl, rfl⟩
    obtain ⟨counter, first, last, step⟩ := h
    cases step <;> rfl

namespace Directive

/-- The directives that tokens can stand for: an echo of anything but `=`, the
header of a loop with two or three bounds, the end of a loop. -/
inductive Reads : List Token → Directive → Prop
  | echo {es : List Element} (hes : ∀ e ∈ es, e ≠ .operator '=') :
      Reads (.operator '=' :: es.map Element.token) (.echo es)
  | loop {keyword : String} {h : LoopHeader} (hkeyword : spells forKeyword keyword.toList = true)
      (hbounds : ∀ e ∈ h.bounds, e.isBound = true) :
      Reads (.name keyword :: .name h.counter :: h.bounds.map Element.token) (.loop h)
  | close : Reads [.name endKeyword] .close

theorem Reads.ne_tagClose {inner : List Token} {d : Directive} (h : Reads inner d) :
    ∀ t ∈ inner, t ≠ .tagClose := by
  have helements (es : List Element) : ∀ t ∈ es.map Element.token, t ≠ .tagClose := by
    intro t ht
    obtain ⟨e, -, rfl⟩ := List.mem_map.mp ht
    cases e <;> nofun
  cases h with
  | @echo es => exact List.forall_mem_cons.mpr ⟨nofun, helements es⟩
  | @loop keyword h =>
    have hcounter := List.forall_mem_cons.mpr
      ⟨(nofun : Token.name h.counter ≠ .tagClose), helements h.bounds⟩
    exact List.forall_mem_cons.mpr ⟨nofun, hcounter⟩
  | close => exact List.forall_mem_cons.mpr ⟨nofun, nofun⟩

def ofEnd : List Token → Except ParseError Directive
  | [] => .ok .close
  | t :: _ => .error (.unexpectedToken t.kind)

def ofBounds (counter : String) (bs : List Element) : Except ParseError Directive := do
  let h ← LoopHeader.ofBounds counter bs
  .ok (.loop h)

def ofFor : List Token → Except ParseError Directive
  | .name counter :: ts => do
    let bs ← ts.mapM Element.ofBound
    ofBounds counter bs
  | t :: _ => .error (.invalidLoopVariable t.kind)
  | [] => .error (.invalidLoopVariable .tagClose)

def ofEcho (ts : List Token) : Except ParseError Directive := do
  let es ← ts.mapM Element.ofEchoed
  .ok (.echo es)

/-- What the tokens between the marks say, or the first mistake among them. -/
def ofTokens : List Token → Except ParseError Directive
  | [] => .error .emptyTag
  | .operator c :: ts =>
    if c = '=' then ofEcho ts else .error (.unexpectedToken .operator)
  | .name s :: ts =>
    if s = endKeyword then ofEnd ts
    else if spells forKeyword s.toList then ofFor ts
    else .error (.unknownTag s)
  | t :: _ => .error (.unexpectedToken t.kind)

theorem ofEcho_eq_ok_iff (ts : List Token) (d : Directive) :
    ofEcho ts = .ok d ↔
      ∃ es : List Element, ts = es.map Element.token ∧ (∀ e ∈ es, e ≠ .operator '=') ∧
        d = .echo es := by
  have hmap := Element.mapM_eq_ok_iff Element.ofEchoed_eq_ok_iff ts
  rw [ofEcho, bind_eq_ok_iff]
  constructor
  · rintro ⟨es, hes, hd⟩
    obtain ⟨hts, hassign⟩ := (hmap es).mp hes
    exact ⟨es, hts, hassign, (Except.ok.inj hd).symm⟩
  · rintro ⟨es, hts, hassign, rfl⟩
    exact ⟨es, (hmap es).mpr ⟨hts, hassign⟩, rfl⟩

theorem ofFor_eq_ok_iff (ts : List Token) (d : Directive) :
    ofFor ts = .ok d ↔
      ∃ h : LoopHeader, ts = .name h.counter :: h.bounds.map Element.token ∧
        (∀ e ∈ h.bounds, e.isBound = true) ∧ d = .loop h := by
  constructor
  · intro h
    unfold ofFor at h
    split at h
    · next counter ts =>
      obtain ⟨bs, hbs, hrest⟩ := bind_eq_ok_iff.mp h
      obtain ⟨header, hof, hd⟩ := bind_eq_ok_iff.mp hrest
      obtain ⟨rfl, rfl⟩ := (LoopHeader.ofBounds_eq_ok_iff counter bs header).mp hof
      obtain ⟨rfl, hbounds⟩ := (Element.mapM_eq_ok_iff Element.ofBound_eq_ok_iff ts _).mp hbs
      exact ⟨header, rfl, hbounds, (Except.ok.inj hd).symm⟩
    · cases h
    · cases h
  · rintro ⟨h, rfl, hbounds, rfl⟩
    have hmap := (Element.mapM_eq_ok_iff Element.ofBound_eq_ok_iff _ h.bounds).mpr ⟨rfl, hbounds⟩
    have hof := (LoopHeader.ofBounds_eq_ok_iff h.counter h.bounds h).mpr ⟨rfl, rfl⟩
    rw [ofFor, bind_eq_ok_iff]
    exact ⟨h.bounds, hmap, bind_eq_ok_iff.mpr ⟨h, hof, rfl⟩⟩

theorem ofTokens_of_reads {ts : List Token} {d : Directive} (h : Reads ts d) :
    ofTokens ts = .ok d := by
  cases h with
  | @echo es hes =>
    rw [ofTokens, if_pos rfl, ofEcho_eq_ok_iff]
    exact ⟨es, rfl, hes, rfl⟩
  | @loop keyword h hkeyword hbounds =>
    have hend : keyword ≠ endKeyword := by
      rintro rfl
      exact absurd hkeyword (by decide)
    rw [ofTokens, if_neg hend, if_pos hkeyword, ofFor_eq_ok_iff]
    exact ⟨h, rfl, hbounds, rfl⟩
  | close => rfl

theorem reads_of_ofTokens {ts : List Token} {d : Directive} (h : ofTokens ts = .ok d) :
    Reads ts d := by
  unfold ofTokens at h
  split at h
  · cases h
  · next c ts =>
    split at h
    · next hc =>
      subst hc
      obtain ⟨es, rfl, hes, rfl⟩ := (ofEcho_eq_ok_iff ts d).mp h
      exact .echo hes
    · cases h
  · next s ts =>
    split at h
    · next hs =>
      subst hs
      cases ts with
      | nil =>
        obtain rfl := Except.ok.inj h
        exact .close
      | cons t ts => cases h
    split at h
    · next hkeyword =>
      obtain ⟨header, rfl, hbounds, rfl⟩ := (ofFor_eq_ok_iff ts d).mp h
      exact .loop hkeyword hbounds
    · cases h
  · cases h

theorem ofTokens_eq_ok_iff (ts : List Token) (d : Directive) :
    ofTokens ts = .ok d ↔ Reads ts d :=
  ⟨reads_of_ofTokens, ofTokens_of_reads⟩

end Directive

/-- The error is about loops that do not match, not about a directive alone. -/
def ParseError.isNesting : ParseError → Bool
  | unmatchedEnd | unclosedLoop _ => true
  | _ => false

/-- The failures of a directive alone. -/
abbrev FailsAlone {α : Type} (r : Except ParseError α) : Prop :=
  FailsOnly (fun e => e.isNesting = false) r

theorem Element.failsAlone_ofEchoed (t : Token) : FailsAlone (ofEchoed t) := by
  unfold ofEchoed
  split
  · exact .error rfl
  · exact .ok _
  · exact .error rfl

theorem Element.failsAlone_ofBound (t : Token) : FailsAlone (ofBound t) := by
  unfold ofBound
  split
  · split
    · exact .ok _
    · exact .error rfl
  · exact .error rfl

namespace Directive

theorem failsAlone_ofBounds (counter : String) (bs : List Element) :
    FailsAlone (ofBounds counter bs) := by
  have hof : FailsAlone (LoopHeader.ofBounds counter bs) := by
    unfold LoopHeader.ofBounds
    split
    · exact .ok _
    · exact .ok _
    · exact .error rfl
  exact hof.bind fun h => .ok _

theorem failsAlone_ofFor (ts : List Token) : FailsAlone (ofFor ts) := by
  unfold ofFor
  split
  · exact (FailsOnly.mapM Element.failsAlone_ofBound _).bind fun bs => failsAlone_ofBounds _ bs
  · exact .error rfl
  · exact .error rfl

theorem failsAlone_ofTokens (ts : List Token) : FailsAlone (ofTokens ts) := by
  unfold ofTokens
  split
  · exact .error rfl
  · split
    · exact (FailsOnly.mapM Element.failsAlone_ofEchoed _).bind fun es => .ok _
    · exact .error rfl
  · next s ts =>
    split
    · cases ts with
      | nil => exact .ok _
      | cons t ts => exact .error rfl
    split
    · exact failsAlone_ofFor ts
    · exact .error rfl
  · exact .error rfl

end Directive

namespace Partial

/-- What a directive says if these are its tokens yet to come. -/
def finish : Partial → List Token → Except ParseError Directive
  | opened, ts => Directive.ofTokens ts
  | closing, ts => Directive.ofEnd ts
  | echo es, ts => do
    let fs ← ts.mapM Element.ofEchoed
    .ok (.echo (es.reverse ++ fs))
  | loopName, ts => Directive.ofFor ts
  | loopBounds counter bs, ts => do
    let cs ← ts.mapM Element.ofBound
    Directive.ofBounds counter (bs.reverse ++ cs)

theorem step_tagClose (d : Partial) : d.step .tagClose = (d.finish []).map .inr := by
  cases d with
  | opened => rfl
  | echo es =>
    rw [finish, List.mapM_nil, pure_bind, List.append_nil]
    rfl
  | closing => rfl
  | loopName => rfl
  | loopBounds counter bs =>
    rw [finish, List.mapM_nil, pure_bind, List.append_nil, Directive.ofBounds, step]
    cases LoopHeader.ofBounds counter bs.reverse <;> rfl

theorem step_echo_ofEchoed {t : Token} (ht : t ≠ .tagClose) (es : List Element) :
    (echo es).step t = match Element.ofEchoed t with
      | .ok e => .ok (.inl (echo (e :: es)))
      | .error err => .error err := by
  have hstep : (echo es).step t = match Element.ofToken? t with
      | some (.operator '=') => .error .assignInEcho
      | some e => .ok (.inl (echo (e :: es)))
      | none => .error (.unexpectedToken t.kind) := by
    cases t with
    | tagClose => exact absurd rfl ht
    | _ => rfl
  rw [hstep, Element.ofEchoed]
  cases Element.ofToken? t with
  | none => rfl
  | some e =>
    cases e with
    | operator c => by_cases hc : c = '=' <;> simp [hc]
    | _ => rfl

theorem step_loopBounds_ofBound {t : Token} (ht : t ≠ .tagClose) (counter : String)
    (bs : List Element) :
    (loopBounds counter bs).step t = match Element.ofBound t with
      | .ok e => .ok (.inl (loopBounds counter (e :: bs)))
      | .error err => .error err := by
  have hstep : (loopBounds counter bs).step t = match Element.ofToken? t with
      | some e =>
        if e.isBound then .ok (.inl (loopBounds counter (e :: bs)))
        else .error (.invalidLoopArgument t.kind)
      | none => .error (.invalidLoopArgument t.kind) := by
    cases t with
    | tagClose => exact absurd rfl ht
    | _ => rfl
  rw [hstep, Element.ofBound]
  cases Element.ofToken? t with
  | none => rfl
  | some e => by_cases hb : e.isBound = true <;> simp [hb]

/-- A token either moves the directive on or is a mistake, whatever comes after. -/
theorem step_inner (d : Partial) {t : Token} (ht : t ≠ .tagClose) :
    (∃ d', d.step t = .ok (.inl d') ∧ ∀ ts, d.finish (t :: ts) = d'.finish ts) ∨
      ∃ e, d.step t = .error e ∧ ∀ ts, d.finish (t :: ts) = .error e := by
  cases d with
  | opened =>
    cases t with
    | tagClose => exact absurd rfl ht
    | operator c =>
      by_cases hc : c = '='
      · left
        refine ⟨.echo [], by simp [step, hc], fun ts => ?_⟩
        simp [finish, Directive.ofTokens, Directive.ofEcho, hc]
      · right
        refine ⟨.unexpectedToken .operator, by simp [step, hc], fun ts => ?_⟩
        simp [finish, Directive.ofTokens, hc]
    | name s =>
      by_cases hend : s = endKeyword
      · left
        refine ⟨.closing, by simp [step, hend], fun ts => ?_⟩
        simp [finish, Directive.ofTokens, hend]
      by_cases hfor : spells forKeyword s.toList = true
      · left
        refine ⟨.loopName, by simp [step, hend, hfor], fun ts => ?_⟩
        simp [finish, Directive.ofTokens, hend, hfor]
      · right
        refine ⟨.unknownTag s, by simp [step, hend, hfor], fun ts => ?_⟩
        simp [finish, Directive.ofTokens, hend, hfor]
    | _ => exact .inr ⟨_, rfl, fun ts => rfl⟩
  | echo es =>
    rw [step_echo_ofEchoed ht]
    cases he : Element.ofEchoed t with
    | ok e =>
      left
      refine ⟨.echo (e :: es), rfl, fun ts => ?_⟩
      rw [finish, mapM_cons_of_ok ts _ he]
      simp only [finish, List.reverse_cons, List.append_assoc, List.singleton_append]
    | error err => exact .inr ⟨err, rfl, fun ts => mapM_cons_of_error ts _ he⟩
  | closing =>
    right
    refine ⟨.unexpectedToken t.kind, ?_, fun ts => rfl⟩
    cases t with
    | tagClose => exact absurd rfl ht
    | _ => rfl
  | loopName =>
    cases t with
    | name s =>
      left
      refine ⟨.loopBounds s [], rfl, fun ts => ?_⟩
      simp [finish, Directive.ofFor]
    | tagClose => exact absurd rfl ht
    | _ => exact .inr ⟨_, rfl, fun ts => rfl⟩
  | loopBounds counter bs =>
    rw [step_loopBounds_ofBound ht]
    cases hb : Element.ofBound t with
    | ok e =>
      left
      refine ⟨.loopBounds counter (e :: bs), rfl, fun ts => ?_⟩
      rw [finish, mapM_cons_of_ok ts _ hb]
      simp only [finish, List.reverse_cons, List.append_assoc, List.singleton_append]
    | error err => exact .inr ⟨err, rfl, fun ts => mapM_cons_of_error ts _ hb⟩

/-- No directive is refused with one error whatever tokens come. -/
theorem exists_finish_ne (d : Partial) (e : ParseError) : ∃ ts, d.finish ts ≠ .error e := by
  cases d with
  | opened => exact ⟨[.name endKeyword], nofun⟩
  | echo es => exact ⟨[], nofun⟩
  | closing => exact ⟨[], nofun⟩
  | loopName =>
    by_cases he : e = .invalidLoopVariable .tagClose
    · subst he
      exact ⟨[.operator '+'], nofun⟩
    · refine ⟨[], fun h => he ?_⟩
      exact (Except.error.inj h).symm
  | loopBounds counter bs =>
    by_cases he : e = .invalidLoopArgument .operator
    · subst he
      exact ⟨[.function ""], nofun⟩
    · refine ⟨[.operator '+'], fun h => he ?_⟩
      exact (Except.error.inj h).symm

end Partial

/-- The tokens are refused with an error however the directive goes on. -/
def Directive.Mistaken (inner : List Token) (e : ParseError) : Prop :=
  ∀ more, ofTokens (inner ++ more) = .error e

namespace Reader

theorem run_cons {r r' : Reader} {t : Token} {ts : List Token} (h : r.step t = .ok r') :
    r.run (t :: ts) = r'.run ts := by
  rw [run, h]

theorem run_append_of_ok {r r' : Reader} {ts us : List Token} (h : r.run ts = .ok r') :
    r.run (ts ++ us) = r'.run us := by
  rw [run_append, h]

theorem step_inside {r : Reader} {d d' : Partial} {t : Token} (hr : r.directive = some d)
    (h : d.step t = .ok (.inl d')) : r.step t = .ok { r with directive := some d' } := by
  simp only [step, hr, h]

theorem step_done {r : Reader} {d : Partial} {done : Directive} {t : Token}
    (hr : r.directive = some d) (h : d.step t = .ok (.inr done)) : r.step t = r.complete done := by
  simp only [step, hr, h]

theorem step_outside {r : Reader} {t : Token} (hr : r.directive = none) :
    r.step t = match t with
      | .text s => .ok (r.add (.text s))
      | .tagOpen => .ok { r with directive := some .opened }
      | .endOfInput => .ok r
      | _ => .error (.unexpectedToken t.kind) := by
  cases t <;> simp only [step, hr]

variable {r : Reader} {inner : List Token}

theorem run_inner (hinner : ∀ t ∈ inner, t ≠ .tagClose) {d : Partial}
    (hd : r.directive = some d) :
    (∃ d', (∀ rest, r.run (inner ++ rest) = Reader.run { r with directive := some d' } rest) ∧
        ∀ more, d.finish (inner ++ more) = d'.finish more) ∨
      ∃ e, (∀ rest, r.run (inner ++ rest) = .error e) ∧
        ∀ more, d.finish (inner ++ more) = .error e := by
  -- one token at a time, the directive so far going along
  induction inner generalizing r d with
  | nil =>
    left
    refine ⟨d, fun rest => ?_, fun more => rfl⟩
    rw [← hd]
    rfl
  | cons t inner ih =>
    obtain ⟨ht, hinner⟩ := List.forall_mem_cons.mp hinner
    rcases d.step_inner ht with ⟨d₁, hstep, hfinish⟩ | ⟨e, hstep, hfinish⟩
    · have hrun (rest : List Token) :
          r.run (t :: inner ++ rest) =
            Reader.run { r with directive := some d₁ } (inner ++ rest) :=
        run_cons (step_inside hd hstep)
      have hmore (more : List Token) :
          d.finish (t :: inner ++ more) = d₁.finish (inner ++ more) :=
        hfinish (inner ++ more)
      simp only [hrun, hmore]
      exact ih (r := { r with directive := some d₁ }) hinner rfl
    · right
      refine ⟨e, fun rest => ?_, fun more => hfinish _⟩
      have hreader : r.step t = .error e := by
        simp only [step, hd, hstep]
      rw [List.cons_append, run, hreader]

/-- A directive that is closed is taken as what its tokens say. -/
theorem run_directive (hinner : ∀ t ∈ inner, t ≠ .tagClose) (hr : r.directive = none)
    (rest : List Token) :
    r.run (directiveTokens inner ++ rest) = match Directive.ofTokens inner with
      | .ok done =>
        match r.complete done with
        | .ok r' => r'.run rest
        | .error e => .error e
      | .error e => .error e := by
  have hopen : r.step .tagOpen = .ok { r with directive := some .opened } := step_outside hr
  have htokens : directiveTokens inner ++ rest = .tagOpen :: (inner ++ .tagClose :: rest) := by
    simp [directiveTokens]
  rw [htokens, run_cons hopen]
  rcases run_inner hinner (r := { r with directive := some .opened }) rfl with
    ⟨d, hrun, hfinish⟩ | ⟨e, hrun, hfinish⟩
  · have hdone : Directive.ofTokens inner = d.finish [] := by
      rw [← hfinish [], List.append_nil]
      rfl
    rw [hrun, hdone, run]
    simp only [step, d.step_tagClose]
    cases d.finish [] with
    | ok done => cases done <;> rfl
    | error e => rfl
  · have hdone : Directive.ofTokens inner = .error e := by
      rw [← hfinish [], List.append_nil]
      rfl
    rw [hrun, hdone]

/-- Tokens that say something are taken as that. -/
theorem run_reads {done : Directive} (h : Directive.Reads inner done)
    (hr : r.directive = none) {r' : Reader} (hdone : r.complete done = .ok r') :
    r.run (directiveTokens inner) = .ok r' := by
  have hrun := run_directive h.ne_tagClose hr []
  rw [List.append_nil, Directive.ofTokens_of_reads h] at hrun
  rw [hrun]
  simp only [hdone]
  rfl

/-- A directive that is not closed is refused if its tokens are. -/
theorem run_cutOff (hinner : ∀ t ∈ inner, t ≠ .tagClose) (hr : r.directive = none) :
    (∃ e, Directive.Mistaken inner e ∧ r.run (.tagOpen :: inner) = .error e) ∨
      (∀ e, ¬ Directive.Mistaken inner e) ∧ ∃ r', r.run (.tagOpen :: inner) = .ok r' := by
  have hopen : r.step .tagOpen = .ok { r with directive := some .opened } := step_outside hr
  rw [run_cons hopen]
  rcases run_inner hinner (r := { r with directive := some .opened }) rfl with
    ⟨d, hrun, hfinish⟩ | ⟨e, hrun, hfinish⟩
  · right
    constructor
    · intro e hmistaken
      obtain ⟨ts, hts⟩ := d.exists_finish_ne e
      apply hts
      rw [← hfinish]
      exact hmistaken ts
    · have hall := hrun []
      rw [List.append_nil] at hall
      exact ⟨_, hall⟩
  · left
    have hall := hrun []
    rw [List.append_nil] at hall
    exact ⟨e, hfinish, hall⟩

end Reader

end PageServer.Template
