import PageServer.Proofs.Exchange.Calls
import PageServer.Proofs.Template.Lexical

/-!
# The stack of scopes is lexical scoping

Rendering opens a scope for each loop, changes it for each value of the counter
and drops it in the end. While a loop runs, its own scope has no other name than
its counter, so the stack finds what the map of the lexical rules holds.
-/

namespace PageServer.Template

/-- The stack finds for each name what the map holds. -/
def Agrees (scopes : List Scope) (m : Bindings) : Prop :=
  ∀ name, findVariable scopes name = m.get? name

/-- The scope of a running loop names nothing but its counter. -/
def Scope.OnlyNames (s : Scope) (counter : String) : Prop :=
  ∀ name, name ≠ counter → s.get? name = none

theorem agrees_nil : Agrees [] .empty :=
  fun _ => rfl

theorem Scope.onlyNames_empty (counter : String) : Scope.OnlyNames Table.empty counter :=
  fun _ _ => rfl

theorem Scope.OnlyNames.insert {s : Scope} {counter : String} (h : s.OnlyNames counter)
    (text : String) : Scope.OnlyNames (s.insert counter text) counter := by
  intro name hname
  rw [Table.get?_insert, if_neg hname]
  exact h name hname

/-- Setting the counter of the innermost loop sets it in the map. -/
theorem Agrees.cons_insert {scopes : List Scope} {m : Bindings} {s : Scope} {counter : String}
    (h : Agrees scopes m) (hs : s.OnlyNames counter) (text : String) :
    Agrees (s.insert counter text :: scopes) (m.insert counter text) := by
  intro name
  rw [findVariable, List.findSome?_cons, Table.get?_insert, Table.get?_insert]
  by_cases hname : name = counter
  · simp [hname]
  · rw [if_neg hname, if_neg hname, hs name hname]
    exact h name

/-! ### Look-ups -/

theorem Agrees.lookup {scopes : List Scope} {m : Bindings} (h : Agrees scopes m) (name : String) :
    Template.lookup scopes name = m.number name := by
  rw [Template.lookup, Bindings.number, h name]
  cases m.get? name <;> rfl

theorem Agrees.resolve {scopes : List Scope} {m : Bindings} (h : Agrees scopes m) (e : Element) :
    Template.resolve scopes e = m.bound e := by
  cases e with
  | name s => exact h.lookup s
  | integer v => rfl
  | double x => rfl
  | string s => rfl
  | function s => rfl
  | operator c => rfl

theorem Agrees.range_eq {scopes : List Scope} {m : Bindings} (hag : Agrees scopes m)
    (h : LoopHeader) :
    h.range scopes = (do
      let first ← m.bound h.first
      let last ← m.bound h.last
      let step ← m.step h.step
      if step.isZero then .error (.zeroStep h.counter) else .ok (.ofBounds first last step)) := by
  simp only [LoopHeader.range, hag.resolve]
  cases h.step <;> rfl

theorem Agrees.range_iff {scopes : List Scope} {m : Bindings} (hag : Agrees scopes m)
    {h : LoopHeader} {r : Except RenderError Range} : h.range scopes = r ↔ Resolves m h r := by
  rw [hag.range_eq]
  constructor
  · rintro rfl
    cases hfirst : m.bound h.first with
    | error e => exact .first hfirst
    | ok first =>
      cases hlast : m.bound h.last with
      | error e => exact .last hfirst hlast
      | ok last =>
        cases hstep : m.step h.step with
        | error e => exact .step hfirst hlast hstep
        | ok step =>
          cases hzero : step.isZero with
          | true => simpa [bind, Except.bind, hzero] using Resolves.zero hfirst hlast hstep hzero
          | false => simpa [bind, Except.bind, hzero] using Resolves.range hfirst hlast hstep hzero
  · intro hr
    cases hr with
    | range hfirst hlast hstep hzero => simp [hfirst, hlast, hstep, hzero, bind, Except.bind]
    | zero hfirst hlast hstep hzero => simp [hfirst, hlast, hstep, hzero, bind, Except.bind]
    | first hfirst => simp [hfirst, bind, Except.bind]
    | last hfirst hlast => simp [hfirst, hlast, bind, Except.bind]
    | step hfirst hlast hstep => simp [hfirst, hlast, hstep, bind, Except.bind]

/-! ### Echoes -/

/-- An echo that begins on a stack of its own. -/
def echoFrom (scopes : List Scope) (es : List Element) : EchoM Unit := do
  echoElements scopes es
  echoResult

theorem echoFrom_nil (scopes : List Scope) : echoFrom scopes [] = echoResult := rfl

theorem echoFrom_cons (scopes : List Scope) (e : Element) (es : List Element) (s : EchoState) :
    echoFrom scopes (e :: es) s = match echoElement scopes e s with
      | .ok _ s' => echoFrom scopes es s'
      | .error e s' => .error e s' := by
  rw [echoFrom, echoElements, bind_assoc, bind_apply]
  cases echoElement scopes e s <;> rfl

theorem echoResult_runs (m : Bindings) (stack : List Value) (ex : Exchange) :
    EchoRuns m [] stack ex (endResult (echoResult ⟨stack, ex⟩))
      (endState (echoResult ⟨stack, ex⟩)).exchange := by
  match stack with
  | [] => exact .unbalanced (by simp)
  | [v] =>
    cases hw : Exchange.writeText v.text ex with
    | ok u ex' =>
      simp only [echoResult, EchoM.onExchange, hw]
      exact .written hw
    | error e ex' =>
      simp only [echoResult, EchoM.onExchange, hw]
      exact .refused hw
  | v :: w :: vs => exact .unbalanced (by simp)

theorem echo_runs {scopes : List Scope} {m : Bindings} (hag : Agrees scopes m)
    (es : List Element) (stack : List Value) (ex : Exchange) :
    EchoRuns m es stack ex (endResult (echoFrom scopes es ⟨stack, ex⟩))
      (endState (echoFrom scopes es ⟨stack, ex⟩)).exchange := by
  induction es generalizing stack ex with
  | nil => exact echoResult_runs m stack ex
  | cons e es ih =>
    rw [echoFrom_cons]
    cases e with
    | name s =>
      cases hn : m.number s with
      | ok n =>
        have hstep : echoElement scopes (.name s) ⟨stack, ex⟩ =
            .ok () ⟨n.toValue :: stack, ex⟩ := by
          rw [echoElement, hag.lookup, hn]; rfl
        rw [hstep]
        exact .name hn (ih _ _)
      | error e =>
        have hstep : echoElement scopes (.name s) ⟨stack, ex⟩ = .error e ⟨stack, ex⟩ := by
          rw [echoElement, hag.lookup, hn]; rfl
        rw [hstep]
        exact .noNumber hn
    | integer v => exact .constant rfl (ih _ _)
    | double x => exact .constant rfl (ih _ _)
    | string s => exact .constant rfl (ih _ _)
    | function s =>
      rw [echoElement]
      cases hb : Builtin.ofName? s with
      | none => exact .noFunction hb
      | some b =>
        dsimp only
        cases hrun : b.run ⟨stack, ex⟩ with
        | ok u s' => exact .function hb hrun (ih _ _)
        | error e s' => exact .functionFails hb hrun
    | operator c =>
      match stack with
      | [] => exact .tooFew (by simp)
      | [v] => exact .tooFew (by simp)
      | right :: left :: stack =>
        cases hv : applyOperator c left right with
        | ok v =>
          have hstep : echoElement scopes (.operator c) ⟨right :: left :: stack, ex⟩ =
              .ok () ⟨v :: stack, ex⟩ := by
            change (EchoM.ofValue (applyOperator c left right) >>= EchoM.push) ⟨stack, ex⟩ = _
            rw [hv]; rfl
          rw [hstep]
          exact .operator hv (ih _ _)
        | error e =>
          have hstep : echoElement scopes (.operator c) ⟨right :: left :: stack, ex⟩ =
              .error (.value e) ⟨stack, ex⟩ := by
            change (EchoM.ofValue (applyOperator c left right) >>= EchoM.push) ⟨stack, ex⟩ = _
            rw [hv]; rfl
          rw [hstep]
          exact .noValue hv

theorem echoElement_constant (scopes : List Scope) {e : Element} {v : Value}
    (h : Value.ofElement? e = some v) : echoElement scopes e = EchoM.push v := by
  cases e <;> simp_all [Value.ofElement?, echoElement]

theorem EchoRuns.echo_eq {scopes : List Scope} {m : Bindings} (hag : Agrees scopes m)
    {es : List Element} {stack : List Value} {ex ex' : Exchange} {r : Ending}
    (h : EchoRuns m es stack ex r ex') :
    endResult (echoFrom scopes es ⟨stack, ex⟩) = r ∧
      (endState (echoFrom scopes es ⟨stack, ex⟩)).exchange = ex' := by
  induction h with
  | written h => simp [echoFrom_nil, echoResult, EchoM.onExchange, h, endResult]
  | refused h => simp [echoFrom_nil, echoResult, EchoM.onExchange, h, endResult]
  | @unbalanced stack ex h =>
    match stack with
    | [] => exact ⟨rfl, rfl⟩
    | [v] => simp at h
    | v :: w :: vs => exact ⟨rfl, rfl⟩
  | constant hv _ ih =>
    rw [echoFrom_cons, echoElement_constant scopes hv]
    exact ih
  | name hn _ ih =>
    rw [echoFrom_cons, echoElement, hag.lookup, hn]
    exact ih
  | noNumber hn =>
    rw [echoFrom_cons, echoElement, hag.lookup, hn]
    exact ⟨rfl, rfl⟩
  | @operator c left right v es stack ex ex' r hv _ ih =>
    have hstep : echoElement scopes (.operator c) ⟨right :: left :: stack, ex⟩ =
        (EchoM.ofValue (applyOperator c left right) >>= EchoM.push) ⟨stack, ex⟩ := rfl
    rw [echoFrom_cons, hstep, hv]
    exact ih
  | @noValue c left right e es stack ex hv =>
    have hstep : echoElement scopes (.operator c) ⟨right :: left :: stack, ex⟩ =
        (EchoM.ofValue (applyOperator c left right) >>= EchoM.push) ⟨stack, ex⟩ := rfl
    rw [echoFrom_cons, hstep, hv]
    exact ⟨rfl, rfl⟩
  | @tooFew c es stack ex h =>
    rw [echoFrom_cons]
    match stack with
    | [] => exact ⟨rfl, rfl⟩
    | [v] => exact ⟨rfl, rfl⟩
    | v :: w :: vs =>
      simp only [List.length_cons] at h
      omega
  | function hb hrun _ ih =>
    rw [echoFrom_cons, echoElement, hb]
    simp only [hrun]
    exact ih
  | functionFails hb hrun =>
    rw [echoFrom_cons, echoElement, hb]
    simp only [hrun]
    exact ⟨rfl, rfl⟩
  | noFunction hb =>
    rw [echoFrom_cons, echoElement, hb]
    exact ⟨rfl, rfl⟩

/-! ### Nodes and loops -/

/-- A run of a document that was not cut off. -/
def finished : Ending → RenderState → EStateM.Result (Stop RenderError) RenderState Unit
  | .ok (), s => .ok () s
  | .error e, s => .error (.failed e) s

theorem finished_inj {r r' : Ending} {s s' : RenderState} :
    finished r s = finished r' s' ↔ r = r' ∧ s = s' := by
  rcases r with e | ⟨⟨⟩⟩ <;> rcases r' with e' | ⟨⟨⟩⟩ <;> simp [finished]

/-- A sequence ends where its second part ends, or where its first part fails. -/
theorem bind_eq_finished_iff {act next : RenderM Unit} {s s' : RenderState} {r : Ending} :
    (act >>= fun _ => next) s = finished r s' ↔
      (∃ s₁, act s = finished (.ok ()) s₁ ∧ next s₁ = finished r s') ∨
        ∃ e, r = .error e ∧ act s = finished (.error e) s' := by
  rw [bind_apply]
  cases act s with
  | ok u s₁ => simp [finished]
  | error e s₁ =>
    rcases r with e' | ⟨⟨⟩⟩
    · simp [finished, eq_comm]
    · simp [finished]

theorem render_text (bound : Nat) (s : String) (scopes : List Scope) (ex : Exchange) :
    (Node.text s).render bound ⟨scopes, ex⟩ = match Exchange.writeText s ex with
      | .ok _ ex' => finished (.ok ()) ⟨scopes, ex'⟩
      | .error e ex' => finished (.error (.response e)) ⟨scopes, ex'⟩ := by
  simp only [Node.render, RenderM.onEcho, EchoM.onExchange]
  cases Exchange.writeText s ex <;> rfl

theorem render_echo (bound : Nat) (es : List Element) (scopes : List Scope) (ex : Exchange) :
    (Node.echo es).render bound ⟨scopes, ex⟩ =
      finished (endResult (echoFrom scopes es ⟨[], ex⟩))
        ⟨scopes, (endState (echoFrom scopes es ⟨[], ex⟩)).exchange⟩ := by
  have hecho : runEcho scopes es = echoFrom scopes es := rfl
  simp only [Node.render, RenderM.onEcho, hecho]
  cases echoFrom scopes es ⟨[], ex⟩ <;> rfl

/-- The body of a loop: the counter is set, then the nodes are rendered. -/
def loopBody (counter : String) (bound : Nat) (ns : List Node) (current : Number) :
    RenderM Unit := do
  RenderM.setVariable counter current.text
  Node.renderAll bound ns

theorem loopBody_apply (counter : String) (bound : Nat) (ns : List Node) (current : Number)
    (s : Scope) (scopes : List Scope) (ex : Exchange) :
    loopBody counter bound ns current ⟨s :: scopes, ex⟩ =
      Node.renderAll bound ns ⟨s.insert counter current.text :: scopes, ex⟩ := rfl

theorem render_loop (bound : Nat) (h : LoopHeader) (ns : List Node) (scopes : List Scope)
    (ex : Exchange) :
    (Node.loop h ns).render bound ⟨scopes, ex⟩ = match h.range scopes with
      | .ok r =>
        RenderM.inScope (iterate r (loopBody h.counter bound ns) bound r.start) ⟨scopes, ex⟩
      | .error e => finished (.error e) ⟨scopes, ex⟩ := by
  rw [Node.render, bind_apply, RenderM.getScopes]
  dsimp only
  rw [bind_apply]
  cases h.range scopes <;> rfl

theorem inScope_eq_finished_iff {act : RenderM Unit} {scopes : List Scope} {ex : Exchange}
    {r : Ending} {s : RenderState} :
    RenderM.inScope act ⟨scopes, ex⟩ = finished r s ↔
      ∃ s₁, act ⟨Table.empty :: scopes, ex⟩ = finished r s₁ ∧
        s = ⟨s₁.scopes.tail, s₁.exchange⟩ := by
  rw [RenderM.inScope]
  cases act ⟨Table.empty :: scopes, ex⟩ with
  | ok u s₁ => rcases r with e | ⟨⟨⟩⟩ <;> simp [finished, eq_comm]
  | error e s₁ =>
    rcases r with e' | ⟨⟨⟩⟩
    · simp only [finished, EStateM.Result.error.injEq]
      constructor
      · rintro ⟨rfl, rfl⟩
        exact ⟨s₁, ⟨rfl, rfl⟩, rfl⟩
      · rintro ⟨s₂, ⟨rfl, rfl⟩, rfl⟩
        exact ⟨rfl, rfl⟩
    · simp [finished]

theorem iterate_passed {r : Range} {body : Number → RenderM Unit} {current : Number}
    (h : current.inRange r.ascending r.last = false) (k : Nat) (s : RenderState) :
    iterate r body k current s = finished (.ok ()) s := by
  cases k <;> (unfold iterate; simp [h]; rfl)

theorem iterate_zero {r : Range} {body : Number → RenderM Unit} {current : Number}
    (h : current.inRange r.ascending r.last = true) (s : RenderState) :
    iterate r body 0 current s = .error .cutOff s := by
  unfold iterate
  simp [h]
  rfl

theorem iterate_succ {r : Range} {body : Number → RenderM Unit} {current : Number}
    (h : current.inRange r.ascending r.last = true) (k : Nat) :
    iterate r body (k + 1) current = (do
      body current
      match current.advance r.step with
      | some next => iterate r body k next
      | none => pure ()) := by
  rw [iterate]
  exact if_pos h

/-! ### From rendering to the rules -/

theorem iterate_runs {counter : String} {range : Range} {ns : List Node} {bound : Nat}
    {scopes : List Scope} {m : Bindings} (hag : Agrees scopes m)
    (hbody : ∀ {scopes : List Scope} {m : Bindings} {ex : Exchange} {r : Ending} {s : RenderState},
      Agrees scopes m → Node.renderAll bound ns ⟨scopes, ex⟩ = finished r s →
        s.scopes = scopes ∧ Runs m (.nodes ns) ex r s.exchange)
    (k : Nat) {current : Number} {own : Scope} (hown : own.OnlyNames counter) {ex : Exchange}
    {r : Ending} {s : RenderState}
    (h : iterate range (loopBody counter bound ns) k current ⟨own :: scopes, ex⟩ = finished r s) :
    s.scopes.tail = scopes ∧ Runs m (.counting counter range ns current) ex r s.exchange := by
  -- on the rounds left: the loop's own scope keeps the counter alone, so the body always
  -- sees the bindings from outside with the counter on top
  induction k generalizing current own ex with
  | zero =>
    cases hin : current.inRange range.ascending range.last with
    | true =>
      rw [iterate_zero hin] at h
      rcases r with e | ⟨⟨⟩⟩ <;> simp [finished] at h
    | false =>
      obtain ⟨rfl, rfl⟩ := finished_inj.mp ((iterate_passed hin 0 _).symm.trans h)
      exact ⟨rfl, .passed hin⟩
  | succ k ih =>
    cases hin : current.inRange range.ascending range.last with
    | false =>
      obtain ⟨rfl, rfl⟩ := finished_inj.mp ((iterate_passed hin (k + 1) _).symm.trans h)
      exact ⟨rfl, .passed hin⟩
    | true =>
      have hag' := hag.cons_insert hown current.text
      rw [iterate_succ hin, bind_eq_finished_iff] at h
      rcases h with ⟨⟨scopes₁, ex₁⟩, hfirst, hrest⟩ | ⟨e, rfl, hfails⟩
      · rw [loopBody_apply] at hfirst
        obtain ⟨rfl, hruns⟩ := hbody hag' hfirst
        cases hsucc : current.advance range.step with
        | none =>
          rw [hsucc] at hrest
          obtain ⟨rfl, rfl⟩ := finished_inj.mp (show finished (.ok ()) _ = finished r s from hrest)
          exact ⟨rfl, .last hin hruns hsucc⟩
        | some succ =>
          rw [hsucc] at hrest
          obtain ⟨htail, hcount⟩ := ih (hown.insert current.text) hrest
          exact ⟨htail, .next hin hruns hsucc hcount⟩
      · rw [loopBody_apply] at hfails
        obtain ⟨hscopes, hruns⟩ := hbody hag' hfails
        exact ⟨by rw [hscopes]; rfl, .bodyFails hin hruns⟩

mutual

theorem node_runs (bound : Nat) (n : Node) {scopes : List Scope} {m : Bindings} {ex : Exchange}
    {r : Ending} {s : RenderState} (hag : Agrees scopes m)
    (h : n.render bound ⟨scopes, ex⟩ = finished r s) :
    s.scopes = scopes ∧ Runs m (.node n) ex r s.exchange := by
  cases n with
  | text t =>
    rw [render_text] at h
    cases hw : Exchange.writeText t ex with
    | ok u ex' =>
      rw [hw] at h
      obtain ⟨rfl, rfl⟩ := finished_inj.mp h
      exact ⟨rfl, .text hw⟩
    | error e ex' =>
      rw [hw] at h
      obtain ⟨rfl, rfl⟩ := finished_inj.mp h
      exact ⟨rfl, .textRefused hw⟩
  | echo es =>
    rw [render_echo] at h
    obtain ⟨rfl, rfl⟩ := finished_inj.mp h
    exact ⟨rfl, .echo (echo_runs hag es [] ex)⟩
  | loop header ns =>
    rw [render_loop] at h
    cases hrange : header.range scopes with
    | error e =>
      rw [hrange] at h
      obtain ⟨rfl, rfl⟩ := finished_inj.mp h
      exact ⟨rfl, .noRange (hag.range_iff.mp hrange)⟩
    | ok range =>
      rw [hrange] at h
      obtain ⟨s₁, hrun, rfl⟩ := inScope_eq_finished_iff.mp h
      obtain ⟨htail, hcount⟩ := iterate_runs hag (fun hag' h' => nodes_runs bound ns hag' h') bound
        (Scope.onlyNames_empty header.counter) hrun
      exact ⟨htail, .loop (hag.range_iff.mp hrange) hcount⟩

theorem nodes_runs (bound : Nat) (ns : List Node) {scopes : List Scope} {m : Bindings}
    {ex : Exchange} {r : Ending} {s : RenderState} (hag : Agrees scopes m)
    (h : Node.renderAll bound ns ⟨scopes, ex⟩ = finished r s) :
    s.scopes = scopes ∧ Runs m (.nodes ns) ex r s.exchange := by
  cases ns with
  | nil =>
    rw [Node.renderAll] at h
    obtain ⟨rfl, rfl⟩ := finished_inj.mp (show finished (.ok ()) _ = finished r s from h)
    exact ⟨rfl, .nil⟩
  | cons n ns =>
    rw [Node.renderAll, bind_eq_finished_iff] at h
    rcases h with ⟨⟨scopes₁, ex₁⟩, hnode, hrest⟩ | ⟨e, rfl, hfails⟩
    · obtain ⟨rfl, hruns⟩ := node_runs bound n hag hnode
      obtain ⟨hscopes, hruns'⟩ := nodes_runs bound ns hag hrest
      exact ⟨hscopes, .cons hruns hruns'⟩
    · obtain ⟨hscopes, hruns⟩ := node_runs bound n hag hfails
      exact ⟨hscopes, .consFails hruns⟩

end

/-! ### From the rules to rendering -/

/-- Rendering does what the rules say of a task, once its bounds are large
enough. -/
def Task.Renders (m : Bindings) (ex : Exchange) (r : Ending) (ex' : Exchange) : Task → Prop
  | .node n => ∀ scopes, Agrees scopes m → ∃ least, ∀ bound, least ≤ bound →
      n.render bound ⟨scopes, ex⟩ = finished r ⟨scopes, ex'⟩
  | .nodes ns => ∀ scopes, Agrees scopes m → ∃ least, ∀ bound, least ≤ bound →
      Node.renderAll bound ns ⟨scopes, ex⟩ = finished r ⟨scopes, ex'⟩
  | .counting counter range ns current => ∀ (scopes : List Scope) (own : Scope),
      Agrees scopes m → own.OnlyNames counter → ∃ least, ∀ bound k, least ≤ bound → least ≤ k →
        ∃ own' : Scope, iterate range (loopBody counter bound ns) k current ⟨own :: scopes, ex⟩ =
          finished r ⟨own' :: scopes, ex'⟩

theorem Runs.renders {m : Bindings} {t : Task} {ex ex' : Exchange} {r : Ending}
    (h : Runs m t ex r ex') : t.Renders m ex r ex' := by
  -- on the derivation: the larger of the bounds of two parts is enough for both
  induction h with
  | text hw =>
    intro scopes _
    exact ⟨0, fun bound _ => by rw [render_text, hw]⟩
  | textRefused hw =>
    intro scopes _
    exact ⟨0, fun bound _ => by rw [render_text, hw]⟩
  | echo hecho =>
    intro scopes hag
    obtain ⟨hr, hex⟩ := hecho.echo_eq hag
    exact ⟨0, fun bound _ => by rw [render_echo, hr, hex]⟩
  | loop hrange _ ih =>
    intro scopes hag
    obtain ⟨least, hcount⟩ := ih scopes _ hag (Scope.onlyNames_empty _)
    refine ⟨least, fun bound hbound => ?_⟩
    obtain ⟨own, hrun⟩ := hcount bound bound hbound hbound
    rw [render_loop, hag.range_iff.mpr hrange]
    exact inScope_eq_finished_iff.mpr ⟨_, hrun, rfl⟩
  | noRange hrange =>
    intro scopes hag
    exact ⟨0, fun bound _ => by rw [render_loop, hag.range_iff.mpr hrange]⟩
  | nil =>
    intro scopes _
    exact ⟨0, fun bound _ => rfl⟩
  | cons _ _ ihnode ihrest =>
    intro scopes hag
    obtain ⟨least₁, hnode⟩ := ihnode scopes hag
    obtain ⟨least₂, hrest⟩ := ihrest scopes hag
    refine ⟨max least₁ least₂, fun bound hbound => ?_⟩
    rw [Node.renderAll, bind_eq_finished_iff]
    exact .inl ⟨_, hnode bound (by omega), hrest bound (by omega)⟩
  | consFails _ ih =>
    intro scopes hag
    obtain ⟨least, hnode⟩ := ih scopes hag
    refine ⟨least, fun bound hbound => ?_⟩
    rw [Node.renderAll, bind_eq_finished_iff]
    exact .inr ⟨_, rfl, hnode bound hbound⟩
  | passed hin =>
    intro scopes own _ _
    exact ⟨0, fun bound k _ _ => ⟨own, iterate_passed hin k _⟩⟩
  | @next m c range ns current succ ex ex' ex'' r hin _ hsucc _ ihbody ihrest =>
    intro scopes own hag hown
    obtain ⟨least₁, hbody⟩ := ihbody _ (hag.cons_insert hown current.text)
    obtain ⟨least₂, hrest⟩ := ihrest scopes _ hag (hown.insert current.text)
    refine ⟨max least₁ (least₂ + 1), fun bound k hbound hk => ?_⟩
    obtain ⟨k, rfl⟩ : ∃ k', k = k' + 1 := ⟨k - 1, by omega⟩
    obtain ⟨own', hrun⟩ := hrest bound k (by omega) (by omega)
    refine ⟨own', ?_⟩
    rw [iterate_succ hin, hsucc, bind_eq_finished_iff]
    exact .inl ⟨_, hbody bound (by omega), hrun⟩
  | @last m c range ns current ex ex' hin _ hsucc ih =>
    intro scopes own hag hown
    obtain ⟨least, hbody⟩ := ih _ (hag.cons_insert hown current.text)
    refine ⟨least + 1, fun bound k hbound hk => ⟨own.insert c current.text, ?_⟩⟩
    obtain ⟨k, rfl⟩ : ∃ k', k = k' + 1 := ⟨k - 1, by omega⟩
    rw [iterate_succ hin, hsucc, bind_eq_finished_iff]
    exact .inl ⟨_, hbody bound (by omega), rfl⟩
  | @bodyFails m c range ns current e ex ex' hin _ ih =>
    intro scopes own hag hown
    obtain ⟨least, hbody⟩ := ih _ (hag.cons_insert hown current.text)
    refine ⟨least + 1, fun bound k hbound hk => ⟨own.insert c current.text, ?_⟩⟩
    obtain ⟨k, rfl⟩ : ∃ k', k = k' + 1 := ⟨k - 1, by omega⟩
    rw [iterate_succ hin, bind_eq_finished_iff]
    exact .inr ⟨e, rfl, hbody bound (by omega)⟩

/-! ### Documents -/

/-- What a document leaves when it was not cut off. -/
def Ending.withExchange : Ending → Exchange → EStateM.Result (Stop RenderError) Exchange Unit
  | .ok (), ex => .ok () ex
  | .error e, ex => .error (.failed e) ex

theorem render_eq_withExchange_iff {d : Document} {bound : Nat} {ex ex' : Exchange} {r : Ending} :
    d.render bound ex = r.withExchange ex' ↔
      ∃ s, Node.renderAll bound d.nodes ⟨[], ex⟩ = finished r s ∧ s.exchange = ex' := by
  rw [Document.render]
  cases Node.renderAll bound d.nodes ⟨[], ex⟩ with
  | ok u s => rcases r with e | ⟨⟨⟩⟩ <;> simp [finished, Ending.withExchange]
  | error e s =>
    rcases r with e' | ⟨⟨⟩⟩
    · simp only [finished, Ending.withExchange, EStateM.Result.error.injEq]
      constructor
      · rintro ⟨rfl, rfl⟩
        exact ⟨s, ⟨rfl, rfl⟩, rfl⟩
      · rintro ⟨s', ⟨rfl, rfl⟩, rfl⟩
        exact ⟨rfl, rfl⟩
    · simp [finished, Ending.withExchange]

theorem runs_of_render {d : Document} {bound : Nat} {ex ex' : Exchange} {r : Ending}
    (h : d.render bound ex = r.withExchange ex') : Runs .empty (.nodes d.nodes) ex r ex' := by
  obtain ⟨s, hs, rfl⟩ := render_eq_withExchange_iff.mp h
  exact (nodes_runs bound d.nodes agrees_nil hs).2

theorem render_of_runs {d : Document} {ex ex' : Exchange} {r : Ending}
    (h : Runs .empty (.nodes d.nodes) ex r ex') :
    ∃ least, ∀ bound, least ≤ bound → d.render bound ex = r.withExchange ex' := by
  obtain ⟨least, hrun⟩ := h.renders [] agrees_nil
  exact ⟨least, fun bound hbound => render_eq_withExchange_iff.mpr ⟨_, hrun bound hbound, rfl⟩⟩

/-- Rendering is lexical scoping. A document ends under some bound, and then
under all that are large enough, just if it ends by the rules, with the same
exchange and the same first error. -/
theorem runs_iff_render (d : Document) (ex : Exchange) (r : Ending) (ex' : Exchange) :
    (Runs .empty (.nodes d.nodes) ex r ex' ↔ ∃ bound, d.render bound ex = r.withExchange ex') ∧
      (Runs .empty (.nodes d.nodes) ex r ex' ↔
        ∃ least, ∀ bound, least ≤ bound → d.render bound ex = r.withExchange ex') := by
  refine ⟨⟨fun h => ?_, fun ⟨bound, h⟩ => runs_of_render h⟩, ⟨render_of_runs, fun h => ?_⟩⟩
  · obtain ⟨least, hrun⟩ := render_of_runs h
    exact ⟨least, hrun least (Nat.le_refl _)⟩
  · obtain ⟨least, hrun⟩ := h
    exact runs_of_render (hrun least (Nat.le_refl _))

end PageServer.Template
