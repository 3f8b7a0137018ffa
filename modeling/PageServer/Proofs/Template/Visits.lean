import PageServer.Proofs.Template.Calls
import PageServer.Proofs.Template.Scoping
import PageServer.Proofs.Template.WellFormed

/-!
# The echoes that rendering comes to

Rendering comes to an echo with the scopes of the loops around it. All these
scopes hold are the texts of counters, because every node puts the scopes back as
it found them.
-/

namespace PageServer.Template

/-! ### Nodes put the scopes back -/

/-- The scopes around the innermost one are the same afterwards. -/
def KeepsOuter {α : Type} (act : RenderM α) : Prop :=
  ∀ s, (endState (act s)).scopes.tail = s.scopes.tail

theorem keepsOuter_sequential : Sequential @KeepsOuter where
  pure _ _ := rfl
  throw _ _ := rfl
  bind := by
    intro α β act next hact hnext s
    have hs := hact s
    rw [bind_apply]
    cases hrun : act s with
    | ok a s' =>
      rw [hrun] at hs
      exact (hnext a s').trans hs
    | error e s' =>
      rw [hrun] at hs
      exact hs

theorem scopes_onEcho (act : List Scope → EchoM Unit) (s : RenderState) :
    (endState (RenderM.onEcho act s)).scopes = s.scopes := by
  rw [RenderM.onEcho]
  cases act s.scopes ⟨[], s.exchange⟩ <;> rfl

theorem scopes_inScope {act : RenderM Unit} (h : KeepsOuter act) (s : RenderState) :
    (endState (RenderM.inScope act s)).scopes = s.scopes := by
  have htail := h ⟨Table.empty :: s.scopes, s.exchange⟩
  rw [RenderM.inScope]
  cases hrun : act ⟨Table.empty :: s.scopes, s.exchange⟩ with
  | ok u s' =>
    rw [hrun] at htail
    exact htail
  | error e s' =>
    rw [hrun] at htail
    exact htail

theorem keepsOuter_setVariable (name text : String) :
    KeepsOuter (RenderM.setVariable name text) := by
  rintro ⟨scopes, ex⟩
  cases scopes <;> rfl

/-- What an echo does is of no matter for the scopes. -/
theorem echoClosed_any : EchoClosed fun {α} (_ : EchoM α) => True where
  pure _ := trivial
  throw _ := trivial
  bind _ _ := trivial
  push _ := trivial
  pop _ := trivial
  paramGet := trivial
  pparamGet := trivial
  tparamGet := trivial
  call _ _ := trivial
  result := trivial

theorem renderClosed_keepsOuter :
    RenderClosed (fun {α} (_ : EchoM α) => True) @KeepsOuter where
  toSequential := keepsOuter_sequential
  onEcho _ s := congrArg List.tail (scopes_onEcho _ s)
  inScope h s := congrArg List.tail (scopes_inScope h s)
  setVariable := keepsOuter_setVariable
  getScopes _ := rfl

theorem scopes_render (bound : Nat) (n : Node) (s : RenderState) :
    (endState (n.render bound s)).scopes = s.scopes := by
  cases n with
  | text t =>
    rw [Node.render]
    exact scopes_onEcho _ s
  | echo es =>
    rw [Node.render]
    exact scopes_onEcho _ s
  | loop h ns =>
    have hbody (current : Number) : KeepsOuter (loopBody h.counter bound ns current) :=
      renderClosed_keepsOuter.bind (keepsOuter_setVariable _ _) fun _ =>
        renderClosed_keepsOuter.nodes echoClosed_any bound ns
    rw [render_loop]
    cases h.range s.scopes with
    | error e => rfl
    | ok r => exact scopes_inScope (renderClosed_keepsOuter.iterate hbody bound r.start) s

theorem scopes_renderAll (bound : Nat) (ns : List Node) (s : RenderState) :
    (endState (Node.renderAll bound ns s)).scopes = s.scopes := by
  induction ns generalizing s with
  | nil => rfl
  | cons n ns ih =>
    have hn := scopes_render bound n s
    rw [Node.renderAll, bind_apply]
    cases hrun : n.render bound s with
    | ok u s' =>
      rw [hrun] at hn
      exact (ih s').trans hn
    | error e s' =>
      rw [hrun] at hn
      exact hn

/-! ### Turns and visits -/

/-- A loop that begins in this state comes to a value of its counter, in another
state and with so many turns left. -/
inductive Turn (r : Range) (body : Number → RenderM Unit) (bound : Nat) (s : RenderState) :
    Nat → Number → RenderState → Prop
  | first : Turn r body bound s bound r.start s
  | next {left : Nat} {current succ : Number} {s₁ s₂ : RenderState}
      (hturn : Turn r body bound s (left + 1) current s₁)
      (hin : current.inRange r.ascending r.last = true) (hbody : body current s₁ = .ok () s₂)
      (hsucc : current.advance r.step = some succ) : Turn r body bound s left succ s₂

/-- An echo at which rendering has arrived. -/
structure EchoVisit where
  scopes : List Scope
  elements : List Element
  exchange : Exchange

/-- Rendering these nodes from this state comes to an echo. -/
inductive Visits (bound : Nat) : List Node → RenderState → EchoVisit → Prop
  | echo {es : List Element} {ns : List Node} {s : RenderState} :
      Visits bound (.echo es :: ns) s ⟨s.scopes, es, s.exchange⟩
  | loop {h : LoopHeader} {body ns : List Node} {s s₁ s₂ : RenderState} {r : Range} {left : Nat}
      {current : Number} {v : EchoVisit} (hrange : h.range s.scopes = .ok r)
      (hturn : Turn r (loopBody h.counter bound body) bound ⟨Table.empty :: s.scopes, s.exchange⟩
        (left + 1) current s₁)
      (hin : current.inRange r.ascending r.last = true)
      (hset : RenderM.setVariable h.counter current.text s₁ = .ok () s₂)
      (hbody : Visits bound body s₂ v) : Visits bound (.loop h body :: ns) s v
  | after {n : Node} {ns : List Node} {s s' : RenderState} {v : EchoVisit}
      (hn : n.render bound s = .ok () s') (hrest : Visits bound ns s' v) :
      Visits bound (n :: ns) s v

def Document.Visits (d : Document) (bound : Nat) (ex : Exchange) (v : EchoVisit) : Prop :=
  Template.Visits bound d.nodes ⟨[], ex⟩ v

theorem Visits.doubles {bound : Nat} {ns : List Node} {s : RenderState} {v : EchoVisit}
    (h : Visits bound ns s v) {x : Float} (hx : x ∈ v.elements.flatMap Element.doubles) :
    x ∈ Node.allDoubles ns := by
  induction h with
  | echo => exact List.mem_append_left _ hx
  | loop _ _ _ _ _ ih => exact List.mem_append_left _ (List.mem_append_right _ (ih hx))
  | after _ _ ih => exact List.mem_append_right _ (ih hx)

/-! ### Counters in the scopes -/

/-- All that the scopes hold are texts of numbers. -/
def HoldNumbers (scopes : List Scope) : Prop :=
  ∀ scope ∈ scopes, ∀ name text, scope.get? name = some text → ∃ n : Number, text = n.text

namespace HoldNumbers

theorem nil : HoldNumbers [] := nofun

theorem cons_empty {scopes : List Scope} (h : HoldNumbers scopes) :
    HoldNumbers (Table.empty :: scopes) :=
  List.forall_mem_cons.mpr ⟨nofun, h⟩

theorem insert {scope : Scope} {scopes : List Scope} (h : HoldNumbers (scope :: scopes))
    (counter : String) (n : Number) : HoldNumbers (scope.insert counter n.text :: scopes) := by
  obtain ⟨hscope, hscopes⟩ := List.forall_mem_cons.mp h
  refine List.forall_mem_cons.mpr ⟨fun name text htext => ?_, hscopes⟩
  rw [Table.get?_insert] at htext
  split at htext
  · exact ⟨n, (Option.some.inj htext).symm⟩
  · exact hscope name text htext

theorem setVariable {counter : String} {n : Number} {s s' : RenderState}
    (h : HoldNumbers s.scopes) (hset : RenderM.setVariable counter n.text s = .ok () s') :
    HoldNumbers s'.scopes := by
  obtain ⟨scopes, ex⟩ := s
  cases scopes with
  | nil =>
    cases hset
    exact nil
  | cons scope scopes =>
    cases hset
    exact h.insert counter n

theorem loopBody {counter : String} {bound : Nat} {ns : List Node} {current : Number}
    {s s' : RenderState} (h : HoldNumbers s.scopes)
    (hbody : Template.loopBody counter bound ns current s = .ok () s') :
    HoldNumbers s'.scopes := by
  rw [Template.loopBody, bind_apply] at hbody
  cases hset : RenderM.setVariable counter current.text s with
  | error e s₁ =>
    rw [hset] at hbody
    cases hbody
  | ok u s₁ =>
    rw [hset] at hbody
    have hscopes := scopes_renderAll bound ns s₁
    dsimp only at hbody
    rw [hbody, endState_ok] at hscopes
    rw [hscopes]
    exact h.setVariable hset

/-- At each turn of a loop, by the turns before it. -/
theorem turn {counter : String} {bound k : Nat} {ns : List Node} {r : Range} {current : Number}
    {s s' : RenderState} (h : HoldNumbers s.scopes)
    (hturn : Turn r (Template.loopBody counter bound ns) bound s k current s') :
    HoldNumbers s'.scopes := by
  induction hturn with
  | first => exact h
  | next _ _ hbody _ ih => exact ih.loopBody hbody

theorem visits {bound : Nat} {ns : List Node} {s : RenderState} {v : EchoVisit}
    (h : HoldNumbers s.scopes) (hv : Visits bound ns s v) : HoldNumbers v.scopes := by
  induction hv with
  | echo => exact h
  | loop _ hturn _ hset _ ih =>
    apply ih
    exact (h.cons_empty.turn hturn).setVariable hset
  | @after n ns s s' v hn _ ih =>
    apply ih
    have hscopes := scopes_render bound n s
    rw [hn, endState_ok] at hscopes
    rwa [hscopes]

theorem find {scopes : List Scope} (h : HoldNumbers scopes) {name text : String}
    (htext : findVariable scopes name = some text) : ∃ n : Number, text = n.text := by
  obtain ⟨scope, hscope, hget⟩ := List.exists_of_findSome?_eq_some htext
  exact h scope hscope name text hget

end HoldNumbers

end PageServer.Template
