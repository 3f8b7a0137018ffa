import PageServer.Proofs.Exchange.Calls
import PageServer.Template.Render

/-!
# The calls of a template

Rendering a document acts on its exchange only by writing text, setting the
content type and changing parameters, whatever the document is and wherever
rendering stops. What these calls and the steps between them have in common,
rendering has.
-/

namespace PageServer

/-- The calls that rendering a document may make. -/
def Exchange.Call.IsOfTemplate : Exchange.Call → Prop
  | .mimeType _ | .writeText _ | .setPersistent _ _ | .erasePersistent _ | .setTemporary _ _
  | .eraseTemporary _ => True
  | _ => False

namespace Template

open Exchange (Call ConsistsOf)

/-! ### Echoes -/

/-- A property of everything an echo is made of. -/
structure EchoClosed (P : {α : Type} → EchoM α → Prop) : Prop extends Sequential P where
  push : ∀ v, P (EchoM.push v)
  pop : ∀ needing, P (EchoM.pop needing)
  paramGet : P Builtin.paramGet.run
  pparamGet : P Builtin.pparamGet.run
  tparamGet : P Builtin.tparamGet.run
  call : ∀ c : Call, c.IsOfTemplate → P (EchoM.onExchange c.perform)
  result : P echoResult

namespace EchoClosed

variable {P : {α : Type} → EchoM α → Prop}

theorem ofValue (h : EchoClosed P) {α : Type} (r : Except ValueError α) : P (EchoM.ofValue r) := by
  cases r with
  | ok a => exact h.pure a
  | error e => exact h.throw (.value e)

theorem ofExcept (h : EchoClosed P) {α : Type} (r : Except RenderError α) :
    P (EchoM.ofExcept r) := by
  cases r with
  | ok a => exact h.pure a
  | error e => exact h.throw e

theorem setParameter (h : EchoClosed P) (b : Builtin) {set : String → String → Exchange → Exchange}
    (hset : ∀ key value, P (EchoM.onExchange (Exchange.modifying (set key value)))) :
    P (b.setParameter set) :=
  h.bind (h.pop _) fun _ => h.bind (h.pop _) fun _ => hset _ _

theorem eraseParameter (h : EchoClosed P) (b : Builtin) {erase : String → Exchange → Exchange}
    (herase : ∀ key, P (EchoM.onExchange (Exchange.modifying (erase key)))) :
    P (b.eraseParameter erase) :=
  h.bind (h.pop _) fun _ => herase _

theorem builtin (h : EchoClosed P) (b : Builtin) : P b.run := by
  cases b with
  | sin => exact h.bind (h.pop _) fun _ => h.bind (h.ofValue _) fun _ => h.push _
  | decfmt =>
    exact h.bind (h.pop _) fun _ => h.bind (h.pop _) fun _ => h.bind (h.ofValue _) fun _ => h.push _
  | dup => exact h.bind (h.pop _) fun _ => h.bind (h.push _) fun _ => h.push _
  | swap =>
    exact h.bind (h.pop _) fun _ => h.bind (h.pop _) fun _ => h.bind (h.push _) fun _ => h.push _
  | setMimeType => exact h.bind (h.pop _) fun mime => h.call (.mimeType mime.text) trivial
  | paramGet => exact h.paramGet
  | pparamGet => exact h.pparamGet
  | tparamGet => exact h.tparamGet
  | pparamSet => exact h.setParameter _ fun key value => h.call (.setPersistent key value) trivial
  | pparamDel => exact h.eraseParameter _ fun key => h.call (.erasePersistent key) trivial
  | tparamSet => exact h.setParameter _ fun key value => h.call (.setTemporary key value) trivial
  | tparamDel => exact h.eraseParameter _ fun key => h.call (.eraseTemporary key) trivial

theorem element (h : EchoClosed P) (scopes : List Scope) (e : Element) :
    P (echoElement scopes e) := by
  cases e with
  | name s => exact h.bind (h.ofExcept _) fun _ => h.push _
  | integer v => exact h.push _
  | double x => exact h.push _
  | string s => exact h.push _
  | function s =>
    rw [echoElement]
    cases Builtin.ofName? s with
    | some b => exact h.builtin b
    | none => exact h.throw _
  | operator op =>
    exact h.bind (h.pop _) fun _ => h.bind (h.pop _) fun _ => h.bind (h.ofValue _) fun _ => h.push _

theorem elements (h : EchoClosed P) (scopes : List Scope) (es : List Element) :
    P (echoElements scopes es) := by
  induction es with
  | nil => exact h.pure ()
  | cons e es ih => exact h.bind (h.element scopes e) fun _ => ih

theorem runEcho (h : EchoClosed P) (scopes : List Scope) (es : List Element) :
    P (Template.runEcho scopes es) :=
  h.bind (h.elements scopes es) fun _ => h.result

end EchoClosed

/-- An action of an echo that consists of calls of a template. -/
abbrev EchoCalls {α : Type} (act : EchoM α) : Prop :=
  ConsistsOf Call.IsOfTemplate EchoState.exchange act

theorem echoCalls_push (v : Value) : EchoCalls (EchoM.push v) :=
  .of_unchanged fun _ => rfl

theorem echoCalls_pop (needing : String) : EchoCalls (EchoM.pop needing) := by
  refine .of_unchanged fun s => ?_
  obtain ⟨stack, ex⟩ := s
  cases stack <;> rfl

theorem echoCalls_call {c : Call} (h : c.IsOfTemplate) :
    EchoCalls (EchoM.onExchange c.perform) := by
  rintro ⟨stack, ex⟩
  obtain ⟨cs, hcs, hrun⟩ := ConsistsOf.call h ex
  refine ⟨cs, hcs, hrun.trans ?_⟩
  simp only [EchoM.onExchange, id]
  cases c.perform ex <;> rfl

theorem echoCalls_getParameter (b : Builtin) (params : Exchange → Params) :
    EchoCalls (b.getParameter params) := by
  refine .bind (echoCalls_pop _) fun default => .bind (echoCalls_pop _) fun name =>
    .bind (.of_unchanged fun _ => rfl) fun ex => ?_
  split
  · exact echoCalls_push _
  · exact echoCalls_push _

theorem echoCalls_result : EchoCalls echoResult := by
  intro s
  unfold echoResult
  split
  · exact echoCalls_call (c := .writeText _) trivial s
  · exact ⟨[], by simp, rfl⟩

theorem echoClosed_echoCalls : EchoClosed EchoCalls where
  toSequential := ConsistsOf.sequential
  push := echoCalls_push
  pop := echoCalls_pop
  paramGet := echoCalls_getParameter _ _
  pparamGet := echoCalls_getParameter _ _
  tparamGet := echoCalls_getParameter _ _
  call _ := echoCalls_call
  result := echoCalls_result

/-! ### Rendering -/

/-- A property of everything rendering is made of, if the echoes have another. -/
structure RenderClosed (P : {α : Type} → EchoM α → Prop) (Q : {α : Type} → RenderM α → Prop) :
    Prop extends Sequential Q where
  onEcho : ∀ {act : List Scope → EchoM Unit}, (∀ scopes, P (act scopes)) → Q (RenderM.onEcho act)
  inScope : ∀ {act : RenderM Unit}, Q act → Q (RenderM.inScope act)
  setVariable : ∀ name text, Q (RenderM.setVariable name text)
  getScopes : Q RenderM.getScopes

namespace RenderClosed

variable {P : {α : Type} → EchoM α → Prop} {Q : {α : Type} → RenderM α → Prop}

theorem ofExcept (h : RenderClosed P Q) {α : Type} (r : Except RenderError α) :
    Q (RenderM.ofExcept r) := by
  cases r with
  | ok a => exact h.pure a
  | error e => exact h.throw (.failed e)

theorem iterate (h : RenderClosed P Q) {r : Range} {body : Number → RenderM Unit}
    (hbody : ∀ n, Q (body n)) (bound : Nat) (current : Number) :
    Q (Template.iterate r body bound current) := by
  induction bound generalizing current with
  | zero =>
    unfold Template.iterate
    split
    · exact h.throw _
    · exact h.pure ()
  | succ bound ih =>
    unfold Template.iterate
    split
    · refine h.bind (hbody current) fun _ => ?_
      split
      · exact ih _
      · exact h.pure ()
    · exact h.pure ()

mutual

theorem node (hP : EchoClosed P) (h : RenderClosed P Q) (bound : Nat) (n : Node) :
    Q (n.render bound) := by
  cases n with
  | text s =>
    rw [Node.render]
    exact h.onEcho fun _ => hP.call (.writeText s) trivial
  | echo es =>
    rw [Node.render]
    exact h.onEcho fun scopes => hP.runEcho scopes es
  | loop header ns =>
    rw [Node.render]
    have hbody (current : Number) : Q (do
        RenderM.setVariable header.counter current.text
        Node.renderAll bound ns) :=
      h.bind (h.setVariable _ _) fun _ => nodes hP h bound ns
    exact h.bind h.getScopes fun scopes => h.bind (h.ofExcept _) fun r =>
      h.inScope (h.iterate hbody _ _)

theorem nodes (hP : EchoClosed P) (h : RenderClosed P Q) (bound : Nat) (ns : List Node) :
    Q (Node.renderAll bound ns) := by
  cases ns with
  | nil =>
    rw [Node.renderAll]
    exact h.pure ()
  | cons n ns =>
    rw [Node.renderAll]
    exact h.bind (node hP h bound n) fun _ => nodes hP h bound ns

end

end RenderClosed

/-- A part of rendering that consists of calls of a template. -/
abbrev RenderCalls {α : Type} (act : RenderM α) : Prop :=
  ConsistsOf Call.IsOfTemplate RenderState.exchange act

theorem renderCalls_onEcho {act : List Scope → EchoM Unit} (h : ∀ scopes, EchoCalls (act scopes)) :
    RenderCalls (RenderM.onEcho act) := by
  rintro ⟨scopes, ex⟩
  obtain ⟨cs, hcs, hrun⟩ := h scopes ⟨[], ex⟩
  refine ⟨cs, hcs, hrun.trans ?_⟩
  simp only [RenderM.onEcho]
  cases act scopes ⟨[], ex⟩ <;> rfl

theorem renderCalls_inScope {act : RenderM Unit} (h : RenderCalls act) :
    RenderCalls (RenderM.inScope act) := by
  rintro ⟨scopes, ex⟩
  obtain ⟨cs, hcs, hrun⟩ := h ⟨Table.empty :: scopes, ex⟩
  refine ⟨cs, hcs, hrun.trans ?_⟩
  simp only [RenderM.inScope]
  cases act ⟨Table.empty :: scopes, ex⟩ <;> rfl

theorem renderCalls_setVariable (name text : String) :
    RenderCalls (RenderM.setVariable name text) := by
  refine .of_unchanged fun s => ?_
  obtain ⟨scopes, ex⟩ := s
  cases scopes <;> rfl

theorem renderClosed_renderCalls : RenderClosed EchoCalls RenderCalls where
  toSequential := ConsistsOf.sequential
  onEcho := renderCalls_onEcho
  inScope := renderCalls_inScope
  setVariable := renderCalls_setVariable
  getScopes := .of_unchanged fun _ => rfl

/-- Rendering a document consists of calls of a template. -/
theorem consistsOf_render (d : Document) (bound : Nat) :
    ConsistsOf Call.IsOfTemplate id (d.render bound) := by
  intro ex
  have hnodes := renderClosed_renderCalls.nodes echoClosed_echoCalls bound d.nodes
  obtain ⟨cs, hcs, hrun⟩ := hnodes ⟨[], ex⟩
  refine ⟨cs, hcs, hrun.trans ?_⟩
  rw [Document.render]
  cases Node.renderAll bound d.nodes ⟨[], ex⟩ <;> rfl

end Template

end PageServer
