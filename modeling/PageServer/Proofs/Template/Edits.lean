import PageServer.Proofs.Exchange.Edits
import PageServer.Template.Render

/-!
# What a template leaves in the session

Two functions edit the session's parameters. The edits of a document are theirs,
in the order in which rendering comes to them.
-/

namespace PageServer.Template

open Exchange (EditsBy noEdits thenEdits)

/-! ### Echoes -/

/-- The edits of a function that finds these values, topmost first. -/
def Builtin.edits : Builtin → List Value → List Edit
  | pparamSet, name :: value :: _ => [.set name.text value.text]
  | pparamDel, name :: _ => [.erase name.text]
  | _, _ => []

def Element.edits : Element → List Value → List Edit
  | function s, stack =>
    match Builtin.ofName? s with
    | some b => b.edits stack
    | none => []
  | _, _ => []

def echoEdits (scopes : List Scope) : List Element → EchoState → List Edit
  | [] => noEdits
  | e :: es =>
    thenEdits (fun s => e.edits s.stack) (echoElement scopes e) fun _ => echoEdits scopes es

abbrev EchoEdits {α : Type} (edits : EchoState → List Edit) (act : EchoM α) : Prop :=
  EditsBy EchoState.exchange edits act

theorem echoEdits_push (v : Value) : EchoEdits noEdits (EchoM.push v) :=
  .of_unchanged fun _ => rfl

theorem echoEdits_pop (needing : String) : EchoEdits noEdits (EchoM.pop needing) := by
  refine .of_unchanged fun s => ?_
  obtain ⟨stack, ex⟩ := s
  cases stack <;> rfl

theorem echoEdits_ofValue {α : Type} (r : Except ValueError α) :
    EchoEdits noEdits (EchoM.ofValue r) := by
  refine .of_unchanged fun s => ?_
  cases r <;> rfl

theorem echoEdits_ofExcept {α : Type} (r : Except RenderError α) :
    EchoEdits noEdits (EchoM.ofExcept r) := by
  refine .of_unchanged fun s => ?_
  cases r <;> rfl

theorem echoEdits_onExchange {α : Type} {edits : List Edit}
    {act : Exchange.Action Response.Error α} (h : EditsBy id (fun _ => edits) act) :
    EchoEdits (fun _ => edits) (EchoM.onExchange act) := by
  rintro ⟨stack, ex⟩
  refine Eq.trans ?_ (h ex)
  rw [EchoM.onExchange]
  cases act ex <;> rfl

theorem echoEdits_getParameter (b : Builtin) (params : Exchange → Params) :
    EchoEdits noEdits (b.getParameter params) := by
  refine (echoEdits_pop _).bind_none fun default => (echoEdits_pop _).bind_none fun name =>
    EditsBy.bind_none (.of_unchanged fun _ => rfl) fun ex => ?_
  split
  · exact echoEdits_push _
  · exact echoEdits_push _

theorem echoEdits_setTemporary :
    EchoEdits noEdits (Builtin.tparamSet.setParameter Exchange.setTemporary) :=
  (echoEdits_pop _).bind_none fun _ => (echoEdits_pop _).bind_none fun _ =>
    echoEdits_onExchange (Exchange.editsBy_modifying fun _ => rfl)

theorem echoEdits_eraseTemporary :
    EchoEdits noEdits (Builtin.tparamDel.eraseParameter Exchange.eraseTemporary) :=
  (echoEdits_pop _).bind_none fun _ =>
    echoEdits_onExchange (Exchange.editsBy_modifying fun _ => rfl)

theorem echoEdits_builtin (b : Builtin) : EchoEdits (fun s => b.edits s.stack) b.run := by
  cases b with
  | sin =>
    exact (echoEdits_pop _).bind_none fun _ => (echoEdits_ofValue _).bind_none fun _ =>
      echoEdits_push _
  | decfmt =>
    exact (echoEdits_pop _).bind_none fun _ => (echoEdits_pop _).bind_none fun _ =>
      (echoEdits_ofValue _).bind_none fun _ => echoEdits_push _
  | dup =>
    exact (echoEdits_pop _).bind_none fun _ => (echoEdits_push _).bind_none fun _ =>
      echoEdits_push _
  | swap =>
    exact (echoEdits_pop _).bind_none fun _ => (echoEdits_pop _).bind_none fun _ =>
      (echoEdits_push _).bind_none fun _ => echoEdits_push _
  | setMimeType =>
    exact (echoEdits_pop _).bind_none fun mime =>
      echoEdits_onExchange (Exchange.editsBy_setMimeType mime.text)
  | paramGet => exact echoEdits_getParameter _ _
  | pparamGet => exact echoEdits_getParameter _ _
  | tparamGet => exact echoEdits_getParameter _ _
  | tparamSet => exact echoEdits_setTemporary
  | tparamDel => exact echoEdits_eraseTemporary
  | pparamSet =>
    -- the edit is made once both values are there
    rintro ⟨stack, ex⟩
    match stack with
    | [] => rfl
    | [_] => rfl
    | _ :: _ :: _ => rfl
  | pparamDel =>
    rintro ⟨stack, ex⟩
    match stack with
    | [] => rfl
    | _ :: _ => rfl

theorem echoEdits_element (scopes : List Scope) (e : Element) :
    EchoEdits (fun s => e.edits s.stack) (echoElement scopes e) := by
  cases e with
  | name s => exact (echoEdits_ofExcept _).bind_none fun _ => echoEdits_push _
  | integer v => exact echoEdits_push _
  | double x => exact echoEdits_push _
  | string s => exact echoEdits_push _
  | function s =>
    simp only [echoElement, Element.edits]
    cases Builtin.ofName? s with
    | some b => exact echoEdits_builtin b
    | none => exact .throw _
  | operator op =>
    exact (echoEdits_pop _).bind_none fun _ => (echoEdits_pop _).bind_none fun _ =>
      (echoEdits_ofValue _).bind_none fun _ => echoEdits_push _

theorem echoEdits_elements (scopes : List Scope) (es : List Element) :
    EchoEdits (echoEdits scopes es) (echoElements scopes es) := by
  induction es with
  | nil => exact .pure ()
  | cons e es ih => exact (echoEdits_element scopes e).bind fun _ => ih

theorem echoEdits_writeText (text : String) :
    EchoEdits noEdits (EchoM.onExchange (Exchange.writeText text)) :=
  echoEdits_onExchange (Exchange.editsBy_writeText text)

theorem echoEdits_result : EchoEdits noEdits echoResult := by
  rintro ⟨stack, ex⟩
  match stack with
  | [] => rfl
  | [v] => exact echoEdits_writeText v.text ⟨[v], ex⟩
  | _ :: _ :: _ => rfl

theorem echoEdits_runEcho (scopes : List Scope) (es : List Element) :
    EchoEdits (echoEdits scopes es) (runEcho scopes es) :=
  (echoEdits_elements scopes es).bind_first fun _ => echoEdits_result

/-! ### Rendering -/

/-- The edits of a loop from one value of its counter on. -/
def iterateEdits (r : Range) (body : Number → RenderM Unit)
    (edits : Number → RenderState → List Edit) : Nat → Number → RenderState → List Edit
  | 0, _ => noEdits
  | bound + 1, current =>
    if current.inRange r.ascending r.last then
      thenEdits (edits current) (body current) fun _ =>
        match current.advance r.step with
        | some next => iterateEdits r body edits bound next
        | none => noEdits
    else noEdits

/-- What a loop does for one value of its counter. -/
def LoopHeader.body (h : LoopHeader) (bound : Nat) (ns : List Node) (current : Number) :
    RenderM Unit := do
  RenderM.setVariable h.counter current.text
  Node.renderAll bound ns

mutual

def Node.edits (bound : Nat) : Node → RenderState → List Edit
  | .text _, _ => []
  | .echo es, s => echoEdits s.scopes es ⟨[], s.exchange⟩
  | .loop h ns, s =>
    match h.range s.scopes with
    | .error _ => []
    | .ok r =>
      let edits (current : Number) :=
        thenEdits noEdits (RenderM.setVariable h.counter current.text)
          fun _ => Node.allEdits bound ns
      iterateEdits r (h.body bound ns) edits bound r.start ⟨Table.empty :: s.scopes, s.exchange⟩

def Node.allEdits (bound : Nat) : List Node → RenderState → List Edit
  | [] => noEdits
  | n :: ns => thenEdits (Node.edits bound n) (Node.render bound n) fun _ => Node.allEdits bound ns

end

abbrev RenderEdits {α : Type} (edits : RenderState → List Edit) (act : RenderM α) : Prop :=
  EditsBy RenderState.exchange edits act

theorem renderEdits_onEcho {act : List Scope → EchoM Unit}
    {edits : List Scope → EchoState → List Edit}
    (h : ∀ scopes, EchoEdits (edits scopes) (act scopes)) :
    RenderEdits (fun s => edits s.scopes ⟨[], s.exchange⟩) (RenderM.onEcho act) := by
  rintro ⟨scopes, ex⟩
  refine Eq.trans ?_ (h scopes ⟨[], ex⟩)
  rw [RenderM.onEcho]
  cases act scopes ⟨[], ex⟩ <;> rfl

theorem renderEdits_inScope {act : RenderM Unit} {edits : RenderState → List Edit}
    (h : RenderEdits edits act) :
    RenderEdits (fun s => edits ⟨Table.empty :: s.scopes, s.exchange⟩) (RenderM.inScope act) := by
  rintro ⟨scopes, ex⟩
  refine Eq.trans ?_ (h ⟨Table.empty :: scopes, ex⟩)
  rw [RenderM.inScope]
  cases act ⟨Table.empty :: scopes, ex⟩ <;> rfl

theorem renderEdits_setVariable (name text : String) :
    RenderEdits noEdits (RenderM.setVariable name text) := by
  refine .of_unchanged fun s => ?_
  obtain ⟨scopes, ex⟩ := s
  cases scopes <;> rfl

theorem renderEdits_iterate {r : Range} {body : Number → RenderM Unit}
    {edits : Number → RenderState → List Edit} (h : ∀ n, RenderEdits (edits n) (body n))
    (bound : Nat) (current : Number) :
    RenderEdits (iterateEdits r body edits bound current) (iterate r body bound current) := by
  -- on the times the body may still run; the edits begin anew with each counter
  induction bound generalizing current with
  | zero =>
    unfold iterate
    split
    · exact .throw _
    · exact .pure ()
  | succ bound ih =>
    unfold iterate iterateEdits
    split
    · refine (h current).bind fun _ => ?_
      cases current.advance r.step with
      | some next => exact ih next
      | none => exact .pure ()
    · exact .pure ()

mutual

theorem renderEdits_node (bound : Nat) (n : Node) :
    RenderEdits (n.edits bound) (n.render bound) := by
  cases n with
  | text s =>
    rw [Node.render]
    exact renderEdits_onEcho fun _ => echoEdits_writeText s
  | echo es =>
    rw [Node.render]
    exact renderEdits_onEcho fun scopes => echoEdits_runEcho scopes es
  | loop h ns =>
    have hbody (current : Number) : RenderEdits (thenEdits noEdits
        (RenderM.setVariable h.counter current.text) fun _ => Node.allEdits bound ns)
        (h.body bound ns current) :=
      (renderEdits_setVariable _ _).bind fun _ => renderEdits_nodes bound ns
    rintro ⟨scopes, ex⟩
    rw [Node.render, bind_apply, RenderM.getScopes]
    dsimp only
    rw [bind_apply, Node.edits]
    cases h.range scopes with
    | error e => rfl
    | ok r => exact renderEdits_inScope (renderEdits_iterate hbody _ _) ⟨scopes, ex⟩

theorem renderEdits_nodes (bound : Nat) (ns : List Node) :
    RenderEdits (Node.allEdits bound ns) (Node.renderAll bound ns) := by
  cases ns with
  | nil =>
    rw [Node.renderAll, Node.allEdits]
    exact .pure ()
  | cons n ns =>
    rw [Node.renderAll, Node.allEdits]
    exact (renderEdits_node bound n).bind fun _ => renderEdits_nodes bound ns

end

def Document.edits (d : Document) (bound : Nat) (ex : Exchange) : List Edit :=
  Node.allEdits bound d.nodes ⟨[], ex⟩

theorem editsBy_render (d : Document) (bound : Nat) :
    EditsBy id (d.edits bound) (d.render bound) := by
  intro ex
  refine Eq.trans ?_ (renderEdits_nodes bound d.nodes ⟨[], ex⟩)
  rw [Document.render]
  cases Node.renderAll bound d.nodes ⟨[], ex⟩ <;> rfl

end PageServer.Template
