import PageServer.Template.Document
import PageServer.Template.Scanner

/-!
# Reading a document

The reader takes the tokens of a template one by one. It remembers the loops
that are open, innermost first, each with the nodes before it, and how far the
present directive has come. Each token either moves it on or is the first
mistake of the template.
-/

namespace PageServer.Template

inductive ParseError where
  | scan (e : ScanError)
  | emptyTag
  | unknownTag (name : String)
  | invalidLoopVariable (found : TokenKind)
  /-- A loop with a wrong number of arguments, its counter being the first. -/
  | loopArity (counter : String) (found : Nat)
  | invalidLoopArgument (found : TokenKind)
  | assignInEcho
  | unexpectedToken (found : TokenKind)
  | unmatchedEnd
  | unclosedLoop (counter : String)
  deriving DecidableEq, Repr

open Decimal (natText) in
def ParseError.message : ParseError → String
  | scan e => e.message
  | emptyTag => "empty directive"
  | unknownTag name => s!"unknown tag `{name}`"
  | invalidLoopVariable k => s!"expected a loop variable after FOR, found {k.label}"
  | loopArity counter n => s!"FOR `{counter}` needs 3 or 4 arguments, found {natText n}"
  | invalidLoopArgument k => s!"{k.label} is not allowed as a FOR argument"
  | assignInEcho => "`=` is not allowed inside an echo"
  | unexpectedToken k => s!"unexpected {k.label} inside a directive"
  | unmatchedEnd => "END without a matching FOR"
  | unclosedLoop counter => s!"FOR `{counter}` is never closed with END"

inductive Directive where
  | echo (elements : List Element)
  | loop (header : LoopHeader)
  | close

/-- A directive of which only the first tokens were read. What was collected
stands last first. -/
inductive Partial where
  | opened
  | echo (elements : List Element)
  | closing
  | loopName
  | loopBounds (counter : String) (bounds : List Element)

def LoopHeader.ofBounds (counter : String) : List Element → Except ParseError LoopHeader
  | [first, last] => .ok ⟨counter, first, last, none⟩
  | [first, last, step] => .ok ⟨counter, first, last, some step⟩
  | bounds => .error (.loopArity counter (bounds.length + 1))

namespace Partial

/-- Takes one token of a directive: it goes on, or is complete. -/
def step : Partial → Token → Except ParseError (Partial ⊕ Directive)
  | opened, .operator c =>
    if c = '=' then .ok (.inl (echo [])) else .error (.unexpectedToken .operator)
  | opened, .name s =>
    if s = endKeyword then .ok (.inl closing)
    else if spells forKeyword s.toList then .ok (.inl loopName)
    else .error (.unknownTag s)
  | opened, .tagClose => .error .emptyTag
  | opened, t => .error (.unexpectedToken t.kind)
  | closing, .tagClose => .ok (.inr .close)
  | closing, t => .error (.unexpectedToken t.kind)
  | echo es, .tagClose => .ok (.inr (.echo es.reverse))
  | echo es, t =>
    match Element.ofToken? t with
    | some (.operator '=') => .error .assignInEcho
    | some e => .ok (.inl (echo (e :: es)))
    | none => .error (.unexpectedToken t.kind)
  | loopName, .name s => .ok (.inl (loopBounds s []))
  | loopName, t => .error (.invalidLoopVariable t.kind)
  | loopBounds counter bs, .tagClose =>
    (LoopHeader.ofBounds counter bs.reverse).map fun h => .inr (.loop h)
  | loopBounds counter bs, t =>
    match Element.ofToken? t with
    | some e =>
      if e.isBound then .ok (.inl (loopBounds counter (e :: bs)))
      else .error (.invalidLoopArgument t.kind)
    | none => .error (.invalidLoopArgument t.kind)

end Partial

/-- A loop that is open, and its elder siblings, youngest first. -/
structure OpenLoop where
  header : LoopHeader
  before : List Node

/-- How far a template was read: the nodes of the innermost open loop, youngest
first, the open loops, innermost first, and the directive being read. -/
structure Reader where
  nodes : List Node
  loops : List OpenLoop
  directive : Option Partial

namespace Reader

def start : Reader := ⟨[], [], none⟩

def add (r : Reader) (n : Node) : Reader :=
  { r with nodes := n :: r.nodes }

def complete (r : Reader) : Directive → Except ParseError Reader
  | .echo es => .ok ⟨.echo es :: r.nodes, r.loops, none⟩
  | .loop h => .ok ⟨[], ⟨h, r.nodes⟩ :: r.loops, none⟩
  | .close =>
    match r.loops with
    | [] => .error .unmatchedEnd
    | l :: ls => .ok ⟨.loop l.header r.nodes.reverse :: l.before, ls, none⟩

def step (r : Reader) (t : Token) : Except ParseError Reader :=
  match r.directive with
  | some d =>
    match d.step t with
    | .ok (.inl d') => .ok { r with directive := some d' }
    | .ok (.inr done) => r.complete done
    | .error e => .error e
  | none =>
    match t with
    | .text s => .ok (r.add (.text s))
    | .tagOpen => .ok { r with directive := some .opened }
    | .endOfInput => .ok r
    | _ => .error (.unexpectedToken t.kind)

/-- The document once all of the template was read. -/
def finish (r : Reader) : Except ParseError Document :=
  match r.loops with
  | [] => .ok ⟨r.nodes.reverse⟩
  | l :: _ => .error (.unclosedLoop l.header.counter)

/-- Takes tokens up to the first mistake. -/
def run (r : Reader) : List Token → Except ParseError Reader
  | [] => .ok r
  | t :: ts =>
    match r.step t with
    | .ok r' => run r' ts
    | .error e => .error e

theorem run_append (r : Reader) (ts us : List Token) :
    r.run (ts ++ us) = match r.run ts with
      | .ok r' => r'.run us
      | .error e => .error e := by
  induction ts generalizing r with
  | nil => rfl
  | cons t ts ih =>
    rw [List.cons_append, run, run]
    cases r.step t with
    | ok r' => exact ih r'
    | error e => rfl

end Reader

/-- The document that a stream of tokens describes. A mistake among the tokens
comes before the reason why there are no more. -/
def TokenStream.document (ts : TokenStream) : Except ParseError Document :=
  match Reader.start.run ts.tokens with
  | .error e => .error e
  | .ok r =>
    match ts.failure with
    | some e => .error (.scan e)
    | none => r.finish

def parse (source : String) : Except ParseError Document :=
  (tokens source).document

end PageServer.Template
