import PageServer.Proofs.Exchange.Commuting
import PageServer.Proofs.Template.Calls

/-!
# Templates do not look at the site

No function of a template leads to a file or a page: what a document does in an
exchange is the same in whatever site the exchange is.
-/

namespace PageServer

open Exchange (Call SiteBlind)

theorem Exchange.Call.IsOfTemplate.siteBlind {c : Call} (h : c.IsOfTemplate) :
    SiteBlind c.perform := by
  cases c with
  | mimeType mime => exact siteBlind_setMimeType mime
  | writeText text => exact siteBlind_writeText text
  | setPersistent key value => exact siteBlind_modifying fun _ _ => rfl
  | erasePersistent key => exact siteBlind_modifying fun _ _ => rfl
  | setTemporary key value => exact siteBlind_modifying fun _ _ => rfl
  | eraseTemporary key => exact siteBlind_modifying fun _ _ => rfl
  | _ => exact h.elim

namespace Template

/-! ### Echoes -/

def EchoState.attach (site : Option Site) (s : EchoState) : EchoState :=
  { s with exchange := s.exchange.attach site }

/-- A step of an echo that does not look at the site. -/
abbrev EchoBlind {α : Type} (site : Option Site) (act : EchoM α) : Prop :=
  Commutes (EchoState.attach site) act

theorem echoBlind_push (site : Option Site) (v : Value) : EchoBlind site (EchoM.push v) :=
  fun _ => rfl

theorem echoBlind_pop (site : Option Site) (needing : String) :
    EchoBlind site (EchoM.pop needing) := by
  rintro ⟨stack, ex⟩
  cases stack <;> rfl

theorem echoBlind_onExchange {α : Type} {act : Exchange.Action Response.Error α}
    (h : SiteBlind act) (site : Option Site) : EchoBlind site (EchoM.onExchange act) := by
  rintro ⟨stack, ex⟩
  simp only [EchoState.attach, EchoM.onExchange, h site ex]
  cases act ex <;> rfl

/-- Of the exchange a function sees some parameters only. -/
theorem echoBlind_getParameter {site : Option Site} (b : Builtin) {params : Exchange → Params}
    (h : ∀ ex, params (ex.attach site) = params ex) : EchoBlind site (b.getParameter params) := by
  refine .bind (echoBlind_pop site _) fun default => .bind (echoBlind_pop site _) fun name => ?_
  intro s
  have hparams : params (s.attach site).exchange = params s.exchange := h s.exchange
  simp only [bind_apply, EchoM.getExchange, hparams]
  cases (params s.exchange).get? name.text with
  | some v => exact echoBlind_push site _ s
  | none => exact echoBlind_push site _ s

theorem echoBlind_result (site : Option Site) : EchoBlind site echoResult := by
  rintro ⟨stack, ex⟩
  match stack with
  | [] => rfl
  | [v] => exact echoBlind_onExchange (Exchange.siteBlind_writeText v.text) site ⟨[v], ex⟩
  | _ :: _ :: _ => rfl

theorem echoClosed_echoBlind (site : Option Site) :
    EchoClosed fun {α : Type} (act : EchoM α) => EchoBlind site act where
  toSequential := Commutes.sequential
  push := echoBlind_push site
  pop := echoBlind_pop site
  paramGet := echoBlind_getParameter _ fun _ => rfl
  pparamGet := echoBlind_getParameter _ fun _ => rfl
  tparamGet := echoBlind_getParameter _ fun _ => rfl
  call _ h := echoBlind_onExchange h.siteBlind site
  result := echoBlind_result site

/-! ### Rendering -/

def RenderState.attach (site : Option Site) (s : RenderState) : RenderState :=
  { s with exchange := s.exchange.attach site }

abbrev RenderBlind {α : Type} (site : Option Site) (act : RenderM α) : Prop :=
  Commutes (RenderState.attach site) act

theorem renderBlind_onEcho {site : Option Site} {act : List Scope → EchoM Unit}
    (h : ∀ scopes, EchoBlind site (act scopes)) : RenderBlind site (RenderM.onEcho act) := by
  rintro ⟨scopes, ex⟩
  have hact : act scopes ⟨[], ex.attach site⟩ = _ := h scopes ⟨[], ex⟩
  simp only [RenderState.attach, RenderM.onEcho, hact]
  cases act scopes ⟨[], ex⟩ <;> rfl

theorem renderBlind_inScope {site : Option Site} {act : RenderM Unit} (h : RenderBlind site act) :
    RenderBlind site (RenderM.inScope act) := by
  rintro ⟨scopes, ex⟩
  have hact : act ⟨Table.empty :: scopes, ex.attach site⟩ = _ := h ⟨Table.empty :: scopes, ex⟩
  simp only [RenderState.attach, RenderM.inScope, hact]
  cases act ⟨Table.empty :: scopes, ex⟩ <;> rfl

theorem renderBlind_setVariable (site : Option Site) (name text : String) :
    RenderBlind site (RenderM.setVariable name text) := by
  rintro ⟨scopes, ex⟩
  cases scopes <;> rfl

theorem renderClosed_renderBlind (site : Option Site) :
    RenderClosed (fun {α : Type} (act : EchoM α) => EchoBlind site act)
      fun {α : Type} (act : RenderM α) => RenderBlind site act where
  toSequential := Commutes.sequential
  onEcho := renderBlind_onEcho
  inScope := renderBlind_inScope
  setVariable := renderBlind_setVariable site
  getScopes := fun _ => rfl

theorem siteBlind_render (d : Document) (bound : Nat) : SiteBlind (d.render bound) := by
  intro site ex
  have hnodes : Node.renderAll bound d.nodes ⟨[], ex.attach site⟩ = _ :=
    (renderClosed_renderBlind site).nodes (echoClosed_echoBlind site) bound d.nodes ⟨[], ex⟩
  rw [Document.render, hnodes, Document.render]
  cases Node.renderAll bound d.nodes ⟨[], ex⟩ <;> rfl

end Template

end PageServer
