import PageServer.Template.Echo
import PageServer.Template.Parser
import PageServer.Template.Printer

/-!
# Rendering a document

Rendering walks a document and writes as it goes. A loop resolves its bounds in
the scopes around it, opens a scope of its own, and runs its body for each value
of its counter; the counter is a whole number if its first value and its step
are. A loop over doubles may never leave its range, so the number of times a
body may run is bounded.
-/

namespace PageServer.Template

structure RenderState where
  /-- The scopes of the open loops, innermost first. -/
  scopes : List Scope
  exchange : Exchange

abbrev RenderM := EStateM (Stop RenderError) RenderState

namespace RenderM

def ofExcept {α : Type} : Except RenderError α → RenderM α
  | .ok a, s => .ok a s
  | .error e, s => .error (.failed e) s

/-- Acts on the exchange with an empty stack. -/
def onEcho (act : List Scope → EchoM Unit) : RenderM Unit := fun ⟨scopes, ex⟩ =>
  match act scopes ⟨[], ex⟩ with
  | .ok () s => .ok () ⟨scopes, s.exchange⟩
  | .error e s => .error (.failed e) ⟨scopes, s.exchange⟩

/-- Runs in a new scope, which is gone afterwards however the run ended. -/
def inScope (act : RenderM Unit) : RenderM Unit := fun ⟨scopes, ex⟩ =>
  match act ⟨Table.empty :: scopes, ex⟩ with
  | .ok () s => .ok () ⟨s.scopes.tail, s.exchange⟩
  | .error e s => .error e ⟨s.scopes.tail, s.exchange⟩

def setVariable (name text : String) : RenderM Unit := fun ⟨scopes, ex⟩ =>
  match scopes with
  | [] => .ok () ⟨[], ex⟩
  | s :: ss => .ok () ⟨s.insert name text :: ss, ex⟩

def getScopes : RenderM (List Scope) := fun s => .ok s.scopes s

end RenderM

namespace Number

/-- Whether a counter has not passed the last bound. Two whole numbers are
compared as such, any others as doubles. -/
def inRange (current : Number) (ascending : Bool) (last : Number) : Bool :=
  match current, last with
  | .int c, .int e => if ascending then c ≤ e else e ≤ c
  | _, _ =>
    if ascending then current.toFloat ≤ last.toFloat else last.toFloat ≤ current.toFloat

def advance (current step : Number) : Option Number :=
  match current, step with
  | .int c, .int s => (Decimal.Int64Arith.add? c s).map .int
  | _, _ => some (.double (current.toFloat + step.toFloat))

def counterStart (first step : Number) : Number :=
  match first, step with
  | .int _, .int _ => first
  | _, _ => .double first.toFloat

end Number

def resolve (scopes : List Scope) : Element → Except RenderError Number
  | .name s => lookup scopes s
  | e =>
    match Value.ofElement? e with
    | some v => v.toNumber.mapError .value
    | none => .error (.value (.notANumber (String.ofList e.chars)))

structure Range where
  start : Number
  last : Number
  step : Number

def Range.ascending (r : Range) : Bool :=
  !r.step.isNegative

/-- The range of a loop. The bounds are resolved in order, a step of zero is
refused. -/
def LoopHeader.range (h : LoopHeader) (scopes : List Scope) : Except RenderError Range := do
  let first ← resolve scopes h.first
  let last ← resolve scopes h.last
  let step ← match h.step with
    | some e => resolve scopes e
    | none => .ok (.int 1)
  if step.isZero then .error (.zeroStep h.counter)
  else .ok ⟨Number.counterStart first step, last, step⟩

/-- Runs the body for each value of the counter from here on, at most so many
times. -/
def iterate (r : Range) (body : Number → RenderM Unit) : Nat → Number → RenderM Unit
  | bound, current =>
    if current.inRange r.ascending r.last then
      match bound with
      | 0 => throw .cutOff
      | bound + 1 => do
        body current
        match current.advance r.step with
        | some next => iterate r body bound next
        | none => pure ()
    else pure ()

mutual

/-- Renders a node; no body of a loop runs more than `bound` times. -/
def Node.render (bound : Nat) : Node → RenderM Unit
  | .text s => RenderM.onEcho fun _ => EchoM.onExchange (Exchange.writeText s)
  | .echo es => RenderM.onEcho fun scopes => runEcho scopes es
  | .loop h ns => do
    let scopes ← RenderM.getScopes
    let r ← RenderM.ofExcept (h.range scopes)
    RenderM.inScope <| iterate r (fun current => do
      RenderM.setVariable h.counter current.text
      Node.renderAll bound ns) bound r.start

def Node.renderAll (bound : Nat) : List Node → RenderM Unit
  | [] => pure ()
  | n :: ns => do
    Node.render bound n
    Node.renderAll bound ns

end

def Document.render (d : Document) (bound : Nat) : Exchange.Action (Stop RenderError) Unit :=
  fun ex =>
    match Node.renderAll bound d.nodes ⟨[], ex⟩ with
    | .ok () s => .ok () s.exchange
    | .error e s => .error e s.exchange

end PageServer.Template
