import PageServer.Template.Render

/-!
# Lexical scoping

What a document does, said rule by rule. The counters in scope are one finite
map from names to the texts of their values: a loop resolves its bounds in the
map around it, its body runs in that map with the counter set, and what follows
the loop has the map around it again. There are no scopes to open or close.
-/

namespace PageServer.Template

/-- The counters in scope with the texts of their values. -/
abbrev Bindings := Table String

/-- How a run ends: it succeeds or stops at its first error. -/
abbrev Ending := Except RenderError Unit

namespace Bindings

/-- The number that a name stands for. -/
def number (m : Bindings) (name : String) : Except RenderError Number :=
  match m.get? name with
  | some text => (Number.parse text).mapError .value
  | none => .error (.unknownVariable name)

/-- The number that an element of a loop header stands for. -/
def bound (m : Bindings) : Element → Except RenderError Number
  | .name s => m.number s
  | .integer v => .ok (.int v)
  | .double x => .ok (.double x)
  | .string s => (Number.parse s).mapError .value
  | .function s => .error (.value (.notANumber (String.ofList (Element.function s).chars)))
  | .operator c => .error (.value (.notANumber (String.ofList (Element.operator c).chars)))

def step (m : Bindings) : Option Element → Except RenderError Number
  | none => .ok (.int 1)
  | some e => m.bound e

end Bindings

/-- The range of a loop whose bounds have these values. -/
def Range.ofBounds (first last step : Number) : Range :=
  ⟨Number.counterStart first step, last, step⟩

/-- The bounds of a loop resolve to a range, or the first that does not is the
error. -/
inductive Resolves (m : Bindings) (h : LoopHeader) : Except RenderError Range → Prop
  | range {first last step : Number} (hfirst : m.bound h.first = .ok first)
      (hlast : m.bound h.last = .ok last) (hstep : m.step h.step = .ok step)
      (hzero : step.isZero = false) : Resolves m h (.ok (.ofBounds first last step))
  | zero {first last step : Number} (hfirst : m.bound h.first = .ok first)
      (hlast : m.bound h.last = .ok last) (hstep : m.step h.step = .ok step)
      (hzero : step.isZero = true) : Resolves m h (.error (.zeroStep h.counter))
  | first {e : RenderError} (hfirst : m.bound h.first = .error e) : Resolves m h (.error e)
  | last {first : Number} {e : RenderError} (hfirst : m.bound h.first = .ok first)
      (hlast : m.bound h.last = .error e) : Resolves m h (.error e)
  | step {first last : Number} {e : RenderError} (hfirst : m.bound h.first = .ok first)
      (hlast : m.bound h.last = .ok last) (hstep : m.step h.step = .error e) :
      Resolves m h (.error e)

/-- The elements of an echo, worked off on a stack with the topmost value in
front. -/
inductive EchoRuns (m : Bindings) :
    List Element → List Value → Exchange → Ending → Exchange → Prop
  | written {v : Value} {ex ex' : Exchange} (h : Exchange.writeText v.text ex = .ok () ex') :
      EchoRuns m [] [v] ex (.ok ()) ex'
  | refused {v : Value} {ex ex' : Exchange} {e : Response.Error}
      (h : Exchange.writeText v.text ex = .error e ex') :
      EchoRuns m [] [v] ex (.error (.response e)) ex'
  | unbalanced {stack : List Value} {ex : Exchange} (h : stack.length ≠ 1) :
      EchoRuns m [] stack ex (.error (.unbalancedEcho stack.length)) ex
  | constant {e : Element} {v : Value} {es : List Element} {stack : List Value}
      {ex ex' : Exchange} {r : Ending} (hv : Value.ofElement? e = some v)
      (rest : EchoRuns m es (v :: stack) ex r ex') : EchoRuns m (e :: es) stack ex r ex'
  | name {s : String} {n : Number} {es : List Element} {stack : List Value} {ex ex' : Exchange}
      {r : Ending} (hn : m.number s = .ok n) (rest : EchoRuns m es (n.toValue :: stack) ex r ex') :
      EchoRuns m (.name s :: es) stack ex r ex'
  | noNumber {s : String} {e : RenderError} {es : List Element} {stack : List Value}
      {ex : Exchange} (hn : m.number s = .error e) :
      EchoRuns m (.name s :: es) stack ex (.error e) ex
  | operator {c : Char} {left right v : Value} {es : List Element} {stack : List Value}
      {ex ex' : Exchange} {r : Ending} (hv : applyOperator c left right = .ok v)
      (rest : EchoRuns m es (v :: stack) ex r ex') :
      EchoRuns m (.operator c :: es) (right :: left :: stack) ex r ex'
  | noValue {c : Char} {left right : Value} {e : ValueError} {es : List Element}
      {stack : List Value} {ex : Exchange} (hv : applyOperator c left right = .error e) :
      EchoRuns m (.operator c :: es) (right :: left :: stack) ex (.error (.value e)) ex
  | tooFew {c : Char} {es : List Element} {stack : List Value} {ex : Exchange}
      (h : stack.length < 2) :
      EchoRuns m (.operator c :: es) stack ex (.error (.stackUnderflow "operator")) ex
  | function {s : String} {b : Builtin} {es : List Element} {stack stack' : List Value}
      {ex ex' ex'' : Exchange} {r : Ending} (hb : Builtin.ofName? s = some b)
      (hrun : b.run ⟨stack, ex⟩ = .ok () ⟨stack', ex'⟩) (rest : EchoRuns m es stack' ex' r ex'') :
      EchoRuns m (.function s :: es) stack ex r ex''
  | functionFails {s : String} {b : Builtin} {e : RenderError} {es : List Element}
      {stack stack' : List Value} {ex ex' : Exchange} (hb : Builtin.ofName? s = some b)
      (hrun : b.run ⟨stack, ex⟩ = .error e ⟨stack', ex'⟩) :
      EchoRuns m (.function s :: es) stack ex (.error e) ex'
  | noFunction {s : String} {es : List Element} {stack : List Value} {ex : Exchange}
      (hb : Builtin.ofName? s = none) :
      EchoRuns m (.function s :: es) stack ex (.error (.unknownFunction s)) ex

/-- What is run: a node, nodes one after another, or the body of a loop for a
value of its counter and those after it. -/
inductive Task where
  | node (n : Node)
  | nodes (ns : List Node)
  | counting (counter : String) (range : Range) (body : List Node) (current : Number)

/-- The map after a task is the one before it, so it is no part of the outcome. -/
inductive Runs : Bindings → Task → Exchange → Ending → Exchange → Prop
  | text {m : Bindings} {s : String} {ex ex' : Exchange}
      (h : Exchange.writeText s ex = .ok () ex') : Runs m (.node (.text s)) ex (.ok ()) ex'
  | textRefused {m : Bindings} {s : String} {ex ex' : Exchange} {e : Response.Error}
      (h : Exchange.writeText s ex = .error e ex') :
      Runs m (.node (.text s)) ex (.error (.response e)) ex'
  | echo {m : Bindings} {es : List Element} {ex ex' : Exchange} {r : Ending}
      (h : EchoRuns m es [] ex r ex') : Runs m (.node (.echo es)) ex r ex'
  | loop {m : Bindings} {h : LoopHeader} {ns : List Node} {range : Range} {ex ex' : Exchange}
      {r : Ending} (hrange : Resolves m h (.ok range))
      (hcount : Runs m (.counting h.counter range ns range.start) ex r ex') :
      Runs m (.node (.loop h ns)) ex r ex'
  | noRange {m : Bindings} {h : LoopHeader} {ns : List Node} {e : RenderError} {ex : Exchange}
      (hrange : Resolves m h (.error e)) : Runs m (.node (.loop h ns)) ex (.error e) ex
  | nil {m : Bindings} {ex : Exchange} : Runs m (.nodes []) ex (.ok ()) ex
  | cons {m : Bindings} {n : Node} {ns : List Node} {ex ex' ex'' : Exchange} {r : Ending}
      (hnode : Runs m (.node n) ex (.ok ()) ex') (hrest : Runs m (.nodes ns) ex' r ex'') :
      Runs m (.nodes (n :: ns)) ex r ex''
  | consFails {m : Bindings} {n : Node} {ns : List Node} {e : RenderError} {ex ex' : Exchange}
      (hnode : Runs m (.node n) ex (.error e) ex') : Runs m (.nodes (n :: ns)) ex (.error e) ex'
  | passed {m : Bindings} {c : String} {range : Range} {ns : List Node} {current : Number}
      {ex : Exchange} (hin : current.inRange range.ascending range.last = false) :
      Runs m (.counting c range ns current) ex (.ok ()) ex
  | next {m : Bindings} {c : String} {range : Range} {ns : List Node} {current succ : Number}
      {ex ex' ex'' : Exchange} {r : Ending}
      (hin : current.inRange range.ascending range.last = true)
      (hbody : Runs (m.insert c current.text) (.nodes ns) ex (.ok ()) ex')
      (hsucc : current.advance range.step = some succ)
      (hrest : Runs m (.counting c range ns succ) ex' r ex'') :
      Runs m (.counting c range ns current) ex r ex''
  | last {m : Bindings} {c : String} {range : Range} {ns : List Node} {current : Number}
      {ex ex' : Exchange} (hin : current.inRange range.ascending range.last = true)
      (hbody : Runs (m.insert c current.text) (.nodes ns) ex (.ok ()) ex')
      (hsucc : current.advance range.step = none) :
      Runs m (.counting c range ns current) ex (.ok ()) ex'
  | bodyFails {m : Bindings} {c : String} {range : Range} {ns : List Node} {current : Number}
      {e : RenderError} {ex ex' : Exchange}
      (hin : current.inRange range.ascending range.last = true)
      (hbody : Runs (m.insert c current.text) (.nodes ns) ex (.error e) ex') :
      Runs m (.counting c range ns current) ex (.error e) ex'

end PageServer.Template
