import PageServer.Proofs.Template.Depths

/-!
# Echoes that lack values

How deep the stack of an echo will be follows from its elements alone, whatever
they compute. An echo lacks values, or has too many in the end, just where this
count says so.
-/

namespace PageServer.Template

open Exchange (SameOutput)

/-! ### Elements -/

namespace Element

/-- A constant needs nothing and stands for one value. An unknown function fails
before it looks at the stack. -/
def arity : Element → Arity
  | name _ | integer _ | double _ | string _ => ⟨0, 1⟩
  | function s =>
    match Builtin.ofName? s with
    | some b => b.arity
    | none => ⟨0, 0⟩
  | operator _ => ⟨2, 1⟩

/-- What an element is called where it lacks values. -/
def label : Element → String
  | function s => s
  | name _ | integer _ | double _ | string _ | operator _ => "operator"

end Element

variable {scopes : List Scope} {ex : Exchange} {es : List Element}

theorem trades_element (scopes : List Scope) (e : Element) :
    Trades e.arity.needs e.arity.leaves (echoElement scopes e) := by
  cases e with
  | name s => exact .bind (.ofExcept (offStack_lookup s)) fun _ => .push _
  | integer v => exact .push _
  | double x => exact .push _
  | string s => exact .push _
  | function s =>
    rw [echoElement, Element.arity]
    cases Builtin.ofName? s with
    | some b => exact b.trades_run
    | none => exact .throw rfl
  | operator op =>
    exact .bind (.pop _) fun _ => .bind (.pop _) fun _ => .bind (.ofValue _) fun _ => .push _

theorem needs_element (scopes : List Scope) (e : Element) :
    Needs e.arity.needs e.label (echoElement scopes e) := by
  cases e with
  | name s => exact .none _
  | integer v => exact .none _
  | double x => exact .none _
  | string s => exact .none _
  | function s =>
    rw [echoElement, Element.arity]
    cases hb : Builtin.ofName? s with
    | some b =>
      obtain rfl := Builtin.name_of_ofName? hb
      exact b.needs_run
    | none => exact .none _
  | operator op => exact .two

/-- What an element does it does with the values that it needs, and with others it
would do the same. -/
def ActsOnTop (scopes : List Scope) (e : Element) : Prop :=
  ∀ (ex : Exchange) (taken below : List Value), taken.length = e.arity.needs →
    let alone := echoElement scopes e ⟨taken, ex⟩
    echoElement scopes e ⟨taken ++ below, ex⟩ = mapState (EchoState.onto below) alone ∧
      ∀ s, alone = .ok () s → s.stack.length = e.arity.leaves

theorem actsOnTop (scopes : List Scope) (e : Element) : ActsOnTop scopes e := by
  intro ex taken below htaken alone
  have htrades := trades_element scopes e
  exact ⟨htrades.frame ⟨taken, ex⟩ below htaken, fun s => htrades.leaves ⟨taken, ex⟩ () s htaken⟩

/-! ### The count -/

/-- How deep the stack is afterwards, if it is deep enough. -/
def Arity.after? (a : Arity) (depth : Nat) : Option Nat :=
  if depth < a.needs then none else some (depth - a.needs + a.leaves)

/-- An element lacks values, or it does what the count says on any stack that deep. -/
theorem trades_of_after? {e : Element} {depth left : Nat} (h : e.arity.after? depth = some left)
    (scopes : List Scope) : Trades depth left (echoElement scopes e) := by
  rw [Arity.after?] at h
  obtain ⟨henough, hleft⟩ := Option.ite_none_left_eq_some.mp h
  have hdepth : depth = e.arity.needs + (depth - e.arity.needs) := by omega
  rw [← Option.some.inj hleft, Nat.add_comm, hdepth]
  simpa using (trades_element scopes e).above (k := depth - e.arity.needs)

theorem echoElement_of_after?_eq_none {e : Element} {s : EchoState}
    (h : e.arity.after? s.stack.length = none) (scopes : List Scope) :
    echoElement scopes e s = .error (.stackUnderflow e.label) ⟨[], s.exchange⟩ := by
  apply needs_element
  by_contra henough
  rw [Arity.after?, if_neg henough] at h
  cases h

/-- How deep the stack is after these elements, if none of them lacks values. -/
def depth? (es : List Element) : Option Nat :=
  es.foldlM (fun depth e => e.arity.after? depth) 0

theorem depth?_append_singleton (es : List Element) (e : Element) :
    depth? (es ++ [e]) = (depth? es).bind e.arity.after? := by
  simp [depth?, List.foldlM_append]

/-- The count comes to an element that needs more values than there are by then. None
before it does, so there is one such element at most. -/
structure Lacks (es before : List Element) (e : Element) : Prop where
  inside : before ++ [e] <+: es
  short : ∃ depth, depth? before = some depth ∧ e.arity.after? depth = none

theorem Lacks.mono {fs before : List Element} {e : Element} (h : Lacks es before e)
    (hinitial : es <+: fs) : Lacks fs before e :=
  ⟨h.inside.trans hinitial, h.short⟩

theorem Lacks.depth?_eq_none {before : List Element} {e : Element} (h : Lacks es before e) :
    depth? es = none := by
  obtain ⟨⟨after, rfl⟩, depth, hdepth, hshort⟩ := h
  have hnone : depth? (before ++ [e]) = none := by
    rw [depth?_append_singleton, hdepth, Option.bind_some, hshort]
  rw [depth?] at hnone ⊢
  rw [List.foldlM_append, hnone]
  rfl

/-! ### Runs -/

/-- A run that succeeds leaves as many values as the count says. -/
theorem depth?_of_echoElements {s : EchoState} (h : echoElements scopes es ⟨[], ex⟩ = .ok () s) :
    depth? es = some s.stack.length := by
  induction es using List.reverseRecOn generalizing s with
  | nil =>
    cases h
    rfl
  | append_singleton es e ih =>
    rw [echoElements_append] at h
    cases hes : echoElements scopes es ⟨[], ex⟩ with
    | error err found =>
      rw [hes] at h
      cases h
    | ok u found =>
      simp only [hes, echoElements_singleton] at h
      rw [depth?_append_singleton, ih hes, Option.bind_some]
      cases hafter : e.arity.after? found.stack.length with
      | none =>
        rw [echoElement_of_after?_eq_none hafter] at h
        cases h
      | some left => rw [(trades_of_after? hafter scopes).leaves found () s rfl h]

/-- The elements are worked off without a fault up to one that lacks values. -/
def ComesToLack (scopes : List Scope) (ex : Exchange) (es : List Element) (needing : String) :
    Prop :=
  ∃ before e found, Lacks es before e ∧ needing = e.label ∧
    echoElements scopes before ⟨[], ex⟩ = .ok () found

theorem ComesToLack.mono {fs : List Element} {needing : String}
    (h : ComesToLack scopes ex es needing) (hinitial : es <+: fs) :
    ComesToLack scopes ex fs needing := by
  obtain ⟨before, e, found, hlacks, hrest⟩ := h
  exact ⟨before, e, found, hlacks.mono hinitial, hrest⟩

theorem ComesToLack.echoElements_eq {needing : String} (h : ComesToLack scopes ex es needing) :
    ∃ s, echoElements scopes es ⟨[], ex⟩ = .error (.stackUnderflow needing) s := by
  obtain ⟨before, e, found, ⟨⟨after, rfl⟩, depth, hdepth, hshort⟩, rfl, hbefore⟩ := h
  have hcount := depth?_of_echoElements hbefore
  rw [hdepth] at hcount
  rw [Option.some.inj hcount] at hshort
  refine ⟨⟨[], found.exchange⟩, ?_⟩
  rw [echoElements_append, echoElements_append, hbefore]
  simp only [echoElements_singleton, echoElement_of_after?_eq_none hshort]

/-- Working off elements sends nothing. It fails for want of values only where the
count says so. -/
structure Counted (scopes : List Scope) (ex : Exchange) (es : List Element) : Prop where
  output : SameOutput ex (endState (echoElements scopes es ⟨[], ex⟩)).exchange
  fails : ∀ err s, echoElements scopes es ⟨[], ex⟩ = .error err s →
    err.isOfStack = false ∨
      ∃ needing, err = .stackUnderflow needing ∧ ComesToLack scopes ex es needing

theorem Counted.append_singleton {e : Element} (h : Counted scopes ex es) :
    Counted scopes ex (es ++ [e]) := by
  have hinitial : es <+: es ++ [e] := List.prefix_append es [e]
  obtain ⟨houtput, hfails⟩ := h
  cases hes : echoElements scopes es ⟨[], ex⟩ with
  | error err found =>
    have hrun : echoElements scopes (es ++ [e]) ⟨[], ex⟩ = .error err found := by
      rw [echoElements_append, hes]
    rw [hes] at houtput
    refine ⟨by rwa [hrun], fun err' s hfail => ?_⟩
    rw [hrun] at hfail
    cases hfail
    obtain hother | ⟨needing, hneeding, hlack⟩ := hfails err found hes
    · exact .inl hother
    · exact .inr ⟨needing, hneeding, hlack.mono hinitial⟩
  | ok u found =>
    have hrun : echoElements scopes (es ++ [e]) ⟨[], ex⟩ = echoElement scopes e found := by
      rw [echoElements_append, hes]
      exact echoElements_singleton e found
    rw [hes] at houtput
    cases hafter : e.arity.after? found.stack.length with
    | none =>
      rw [echoElement_of_after?_eq_none hafter] at hrun
      refine ⟨by rwa [hrun], fun err s hfail => .inr ⟨e.label, ?_, ?_⟩⟩
      · rw [hrun] at hfail
        cases hfail
        rfl
      · exact ⟨es, e, found, ⟨List.prefix_rfl, _, depth?_of_echoElements hes, hafter⟩, rfl, hes⟩
    | some left =>
      have htrades := trades_of_after? hafter scopes
      refine ⟨?_, fun err s hfail => .inl ?_⟩
      · rw [hrun]
        exact houtput.trans (htrades.output found rfl)
      · rw [hrun] at hfail
        exact htrades.fails found err s rfl hfail

theorem counted (scopes : List Scope) (ex : Exchange) (es : List Element) :
    Counted scopes ex es := by
  induction es using List.reverseRecOn with
  | nil =>
    refine ⟨.refl ex, fun err s hfail => ?_⟩
    cases hfail
  | append_singleton es e ih => exact ih.append_singleton

/-! ### Echoes -/

theorem render_echo_of_error {err : RenderError} {s : EchoState}
    (h : echoElements scopes es ⟨[], ex⟩ = .error err s) (bound : Nat) :
    (Node.echo es).render bound ⟨scopes, ex⟩ = .error (.failed err) ⟨scopes, s.exchange⟩ := by
  rw [Node.render, RenderM.onEcho, runEcho, bind_apply, h]

theorem render_echo_of_unbalanced {s : EchoState}
    (h : echoElements scopes es ⟨[], ex⟩ = .ok () s) (hdepth : s.stack.length ≠ 1) (bound : Nat) :
    (Node.echo es).render bound ⟨scopes, ex⟩ =
      .error (.failed (.unbalancedEcho s.stack.length)) ⟨scopes, s.exchange⟩ := by
  obtain ⟨stack, ex'⟩ := s
  rw [Node.render, RenderM.onEcho, runEcho, bind_apply, h]
  rcases stack with _ | ⟨v, _ | ⟨w, stack⟩⟩
  · rfl
  · exact absurd rfl hdepth
  · rfl

theorem isOfStack_of_balanced {s : EchoState} (h : echoElements scopes es ⟨[], ex⟩ = .ok () s)
    (hdepth : s.stack.length = 1) {bound : Nat} {err : RenderError}
    (herr : endResult ((Node.echo es).render bound ⟨scopes, ex⟩) = .error (.failed err)) :
    err.isOfStack = false := by
  obtain ⟨stack, ex'⟩ := s
  obtain ⟨v, rfl⟩ := List.length_eq_one_iff.mp hdepth
  rw [Node.render, RenderM.onEcho, runEcho, bind_apply, h] at herr
  simp only [echoResult, EchoM.onExchange] at herr
  cases hwrite : Exchange.writeText v.text ex' with
  | ok u ex'' =>
    rw [hwrite] at herr
    cases herr
  | error e ex'' =>
    rw [hwrite] at herr
    cases herr
    rfl

/-- An echo fails over its stack where the count finds a fault. -/
theorem stackFault_cases {bound : Nat} {err : RenderError}
    (h : endResult ((Node.echo es).render bound ⟨scopes, ex⟩) = .error (.failed err))
    (herr : err.isOfStack = true) :
    (∃ needing, err = .stackUnderflow needing ∧ ComesToLack scopes ex es needing) ∨
      ∃ s, echoElements scopes es ⟨[], ex⟩ = .ok () s ∧ s.stack.length ≠ 1 ∧
        err = .unbalancedEcho s.stack.length := by
  cases hes : echoElements scopes es ⟨[], ex⟩ with
  | error err' s =>
    rw [render_echo_of_error hes] at h
    cases h
    obtain hother | hlack := (counted scopes ex es).fails err s hes
    · rw [hother] at herr
      cases herr
    · exact .inl hlack
  | ok u s =>
    right
    refine ⟨s, rfl, ?_⟩
    by_cases hdepth : s.stack.length = 1
    · rw [isOfStack_of_balanced hes hdepth h] at herr
      cases herr
    · rw [render_echo_of_unbalanced hes hdepth] at h
      cases h
      exact ⟨hdepth, rfl⟩

theorem stackUnderflow_iff {bound : Nat} {needing : String} :
    endResult ((Node.echo es).render bound ⟨scopes, ex⟩) =
        .error (.failed (.stackUnderflow needing)) ↔ ComesToLack scopes ex es needing := by
  constructor
  · intro h
    obtain ⟨needing', hneeding, hlack⟩ | ⟨s, -, -, hother⟩ := stackFault_cases h rfl
    · cases hneeding
      exact hlack
    · cases hother
  · intro h
    obtain ⟨s, hs⟩ := h.echoElements_eq
    rw [render_echo_of_error hs]
    rfl

theorem unbalancedEcho_iff {bound n : Nat} :
    endResult ((Node.echo es).render bound ⟨scopes, ex⟩) = .error (.failed (.unbalancedEcho n)) ↔
      depth? es = some n ∧ n ≠ 1 ∧ ∃ s, echoElements scopes es ⟨[], ex⟩ = .ok () s := by
  constructor
  · intro h
    obtain ⟨needing, hother, -⟩ | ⟨s, hs, hdepth, hn⟩ := stackFault_cases h rfl
    · cases hother
    · cases hn
      exact ⟨depth?_of_echoElements hs, hdepth, s, hs⟩
  · rintro ⟨hn, hne, s, hs⟩
    obtain rfl : s.stack.length = n := by
      rw [depth?_of_echoElements hs] at hn
      exact Option.some.inj hn
    rw [render_echo_of_unbalanced hs hne]
    rfl

theorem isOfStack_of_depth_one {bound : Nat} {err : RenderError} (hone : depth? es = some 1)
    (herr : endResult ((Node.echo es).render bound ⟨scopes, ex⟩) = .error (.failed err)) :
    err.isOfStack = false := by
  by_contra hstack
  rw [Bool.not_eq_false] at hstack
  obtain ⟨needing, -, before, e, found, hlacks, -⟩ | ⟨s, hs, hdepth, -⟩ :=
    stackFault_cases herr hstack
  · rw [hlacks.depth?_eq_none] at hone
    cases hone
  · rw [depth?_of_echoElements hs] at hone
    exact hdepth (Option.some.inj hone)

theorem fails_of_depth_ne_one (hne : depth? es ≠ some 1) (bound : Nat) (scopes : List Scope)
    (ex : Exchange) :
    ∃ err ex', (Node.echo es).render bound ⟨scopes, ex⟩ = .error (.failed err) ⟨scopes, ex'⟩ ∧
      SameOutput ex ex' := by
  have houtput := (counted scopes ex es).output
  cases hes : echoElements scopes es ⟨[], ex⟩ with
  | error err s =>
    rw [hes] at houtput
    exact ⟨err, s.exchange, render_echo_of_error hes bound, houtput⟩
  | ok u s =>
    rw [hes] at houtput
    have hdepth : s.stack.length ≠ 1 := by
      intro hone
      rw [depth?_of_echoElements hes, hone] at hne
      exact hne rfl
    exact ⟨_, s.exchange, render_echo_of_unbalanced hes hdepth bound, houtput⟩

/-- Whether an echo lacks values or has not just one in the end is known from its
elements. It fails for want of values exactly if it comes, without another fault, to
the element that the count says lacks them, and is unbalanced exactly if it comes to
its end and the count ends at that depth. Where the count does not end at one, the
echo fails and sends nothing; and no element looks below the values that it needs. -/
theorem stack_faults_static (es : List Element) (bound : Nat) (scopes : List Scope)
    (ex : Exchange) :
    let run := (Node.echo es).render bound ⟨scopes, ex⟩
    (∀ needing, endResult run = .error (.failed (.stackUnderflow needing)) ↔
      ComesToLack scopes ex es needing) ∧
    (∀ n, endResult run = .error (.failed (.unbalancedEcho n)) ↔
      depth? es = some n ∧ n ≠ 1 ∧ ∃ s, echoElements scopes es ⟨[], ex⟩ = .ok () s) ∧
    (depth? es = some 1 → ∀ err, endResult run = .error (.failed err) →
      err.isOfStack = false) ∧
    (depth? es ≠ some 1 → ∃ err ex', run = .error (.failed err) ⟨scopes, ex'⟩ ∧
      SameOutput ex ex') ∧
    ∀ e ∈ es, ActsOnTop scopes e := by
  intro run
  exact ⟨fun _ => stackUnderflow_iff, fun _ => unbalancedEcho_iff,
    fun hone _ => isOfStack_of_depth_one hone, fun hne => fails_of_depth_ne_one hne bound scopes ex,
    fun e _ => actsOnTop scopes e⟩

/-- The first swap finds two values, the second only the one that is left. -/
example :
    let es : List Element := [.integer 1, .integer 2, .function "swap", .operator '-']
    depth? es = some 1 ∧ depth? (es ++ [.function "swap"]) = none := by
  decide

end PageServer.Template
