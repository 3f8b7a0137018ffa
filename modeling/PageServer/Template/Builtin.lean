import PageServer.Exchange
import PageServer.Outcome
import PageServer.Template.Pattern

/-!
# Functions of templates

A function takes its arguments from the stack, the last argument first, and may
put one result back; what it took is gone even if it fails. The functions that
deal with parameters or the content type act on the exchange.
-/

namespace PageServer.Template

inductive RenderError where
  | unknownVariable (name : String)
  | unknownFunction (name : String)
  /-- A function or an operator needs more values than there are. -/
  | stackUnderflow (needing : String)
  | unbalancedEcho (left : Nat)
  | zeroStep (counter : String)
  | value (e : ValueError)
  | response (e : Response.Error)
  deriving DecidableEq, Repr

def RenderError.message : RenderError → String
  | unknownVariable name => s!"variable `{name}` is not defined in any enclosing loop"
  | unknownFunction name => s!"unknown function `@{name}`"
  | stackUnderflow name => s!"`{name}` needs more values than the stack holds"
  | unbalancedEcho n =>
    s!"echo must leave exactly one value on the stack, found {Decimal.natText n}"
  | zeroStep counter => s!"FOR `{counter}` has a step of zero"
  | value e => e.message
  | response e => e.message

inductive Builtin where
  | sin | decfmt | dup | swap | setMimeType
  | paramGet
  | pparamGet | pparamSet | pparamDel
  | tparamGet | tparamSet | tparamDel
  deriving DecidableEq, Repr

/-- The values of an echo, topmost first, and the exchange. -/
structure EchoState where
  stack : List Value
  exchange : Exchange

/-- A step of an echo. What it did before failing stays done. -/
abbrev EchoM := EStateM RenderError EchoState

namespace EchoM

def push (v : Value) : EchoM Unit := fun ⟨stack, ex⟩ =>
  .ok () ⟨v :: stack, ex⟩

/-- Takes the topmost value for the function or operator of that name. -/
def pop (needing : String) : EchoM Value := fun ⟨stack, ex⟩ =>
  match stack with
  | [] => .error (.stackUnderflow needing) ⟨[], ex⟩
  | v :: vs => .ok v ⟨vs, ex⟩

def ofValue {α : Type} : Except ValueError α → EchoM α
  | .ok a, s => .ok a s
  | .error e, s => .error (.value e) s

def onExchange {α : Type} (act : Exchange.Action Response.Error α) : EchoM α :=
  fun ⟨stack, ex⟩ =>
    match act ex with
    | .ok a ex => .ok a ⟨stack, ex⟩
    | .error e ex => .error (.response e) ⟨stack, ex⟩

def getExchange : EchoM Exchange := fun s => .ok s.exchange s

end EchoM

namespace Builtin

def all : List Builtin :=
  [decfmt, dup, paramGet, pparamDel, pparamGet, pparamSet, setMimeType, sin, swap, tparamDel,
   tparamGet, tparamSet]

def name : Builtin → String
  | sin => "sin"
  | decfmt => "decfmt"
  | dup => "dup"
  | swap => "swap"
  | setMimeType => "setMimeType"
  | paramGet => "paramGet"
  | pparamGet => "pparamGet"
  | pparamSet => "pparamSet"
  | pparamDel => "pparamDel"
  | tparamGet => "tparamGet"
  | tparamSet => "tparamSet"
  | tparamDel => "tparamDel"

def ofName? (name : String) : Option Builtin :=
  all.find? fun b => b.name == name

def radiansPerDegree : Float := 3.141592653589793 / 180

/-- The sine of an angle in degrees, which lies between -1 and 1. An angle that
is not finite has none. -/
def sineOfDegrees (x : Float) : Float :=
  if x.isFinite then max (-1) (min (x * radiansPerDegree).sin 1)
  else Float.ofBits 0x7ff8000000000000

open EchoM

/-- The parameter whose name is below the topmost value, or that value if there
is no such parameter. -/
def getParameter (b : Builtin) (params : Exchange → Params) : EchoM Unit := do
  let default ← pop b.name
  let name ← pop b.name
  let ex ← getExchange
  match (params ex).get? name.text with
  | some v => push (.string v)
  | none => push default

/-- Stores the second value under the topmost one. -/
def setParameter (b : Builtin) (set : String → String → Exchange → Exchange) : EchoM Unit := do
  let name ← pop b.name
  let value ← pop b.name
  onExchange (Exchange.modifying (set name.text value.text))

def eraseParameter (b : Builtin) (erase : String → Exchange → Exchange) : EchoM Unit := do
  let name ← pop b.name
  onExchange (Exchange.modifying (erase name.text))

def run : Builtin → EchoM Unit
  | sin => do
    let v ← pop sin.name
    let n ← ofValue v.toNumber
    push (.double (sineOfDegrees n.toFloat))
  | decfmt => do
    let pattern ← pop decfmt.name
    let v ← pop decfmt.name
    let n ← ofValue v.toNumber
    push (.string (formatDecimal n pattern.text))
  | dup => do
    let v ← pop dup.name
    push v
    push v
  | swap => do
    let b ← pop swap.name
    let a ← pop swap.name
    push b
    push a
  | setMimeType => do
    let mime ← pop setMimeType.name
    onExchange (Exchange.setMimeType mime.text)
  | paramGet => getParameter paramGet Exchange.query
  | pparamGet => getParameter pparamGet Exchange.persistent
  | pparamSet => setParameter pparamSet Exchange.setPersistent
  | pparamDel => eraseParameter pparamDel Exchange.erasePersistent
  | tparamGet => getParameter tparamGet Exchange.temporary
  | tparamSet => setParameter tparamSet Exchange.setTemporary
  | tparamDel => eraseParameter tparamDel Exchange.eraseTemporary

end Builtin

end PageServer.Template
