import PageServer.Template.Builtin

/-!
# Echoes

The elements of an echo are worked off from left to right on a stack that starts
empty; the echo writes the one value left on it. Variables are looked up in the
scopes of the loops around, innermost first, where each is kept as text.
-/

namespace PageServer.Template

/-- The counters of one loop as text. -/
abbrev Scope := Table String

/-- The text of a variable in the innermost scope that has it. -/
def findVariable (scopes : List Scope) (name : String) : Option String :=
  scopes.findSome? fun s => s.get? name

def lookup (scopes : List Scope) (name : String) : Except RenderError Number :=
  match findVariable scopes name with
  | none => .error (.unknownVariable name)
  | some text => (Number.parse text).mapError .value

namespace EchoM

def ofExcept {α : Type} : Except RenderError α → EchoM α
  | .ok a, s => .ok a s
  | .error e, s => .error e s

end EchoM

open EchoM

def echoElement (scopes : List Scope) : Element → EchoM Unit
  | .name s => do
    let n ← EchoM.ofExcept (lookup scopes s)
    push n.toValue
  | .integer v => push (.int v)
  | .double x => push (.double x)
  | .string s => push (.string s)
  | .function s =>
    match Builtin.ofName? s with
    | some b => b.run
    | none => throw (.unknownFunction s)
  | .operator op => do
    let right ← pop "operator"
    let left ← pop "operator"
    let v ← ofValue (applyOperator op left right)
    push v

def echoElements (scopes : List Scope) : List Element → EchoM Unit
  | [] => pure ()
  | e :: es => do
    echoElement scopes e
    echoElements scopes es

def echoResult : EchoM Unit := fun s =>
  match s.stack with
  | [v] => onExchange (Exchange.writeText v.text) s
  | vs => .error (.unbalancedEcho vs.length) s

def runEcho (scopes : List Scope) (es : List Element) : EchoM Unit := do
  echoElements scopes es
  echoResult

end PageServer.Template
