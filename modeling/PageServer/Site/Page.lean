import PageServer.Decimal.Integer
import PageServer.Response.ErrorPage

/-!
# Pages of the handlers

A handler answers with a page of its own, or leaves parameters in the exchange
and leads to a page of the site. Every value that a page shows is escaped.
-/

namespace PageServer.Site

open Exchange (Action)

inductive HandlerError where
  | response (e : Response.Error)
  | sumOverflow (a b : Int64)
  deriving DecidableEq, Repr

def HandlerError.message : HandlerError → String
  | response e => e.message
  | sumOverflow a b => s!"{Decimal.intText a.toInt} + {Decimal.intText b.toInt} overflows"

/-- What follows when a path was answered. -/
inductive Next where
  | done
  /-- The answer is that of another path. -/
  | forward (path : String)
  deriving DecidableEq, Repr

namespace Page

def greeting (name : Option String) : String :=
  match (name.map Text.trim).filter (!·.isEmpty) with
  | some n =>
    s!"<html><body><h1>Hello {Response.escapeMarkup n}!</h1><p>Your name has " ++
      s!"{Decimal.natText n.length} letters.</p></body></html>"
  | none => "<html><body><h1>Hello!</h1><p>You did not send a name.</p></body></html>"

def parameterRow (entry : String × String) : String :=
  s!"<tr><td>{Response.escapeMarkup entry.1}</td><td>{Response.escapeMarkup entry.2}</td></tr>"

/-- A table of all parameters in the order of their names. -/
def parameterTable (params : Params) : String :=
  "<html><body><table border=\"1\"><tr><th>Name</th><th>Value</th></tr>" ++
    String.join (params.entries.map parameterRow) ++ "</table></body></html>"

/-- Six hexadecimal digits. -/
def isColor (s : String) : Bool :=
  s.length == 6 && s.toList.all Text.isHexDigit

inductive ColorRequest where
  | color (digits : String)
  | invalid (text : String)
  | missing
  deriving DecidableEq, Repr

def ColorRequest.ofText? : Option String → ColorRequest
  | some s => if isColor s then .color (Text.asciiUpper s) else .invalid s
  | none => .missing

def ColorRequest.answer : ColorRequest → String
  | color digits => s!"Background color set to #{digits}."
  | invalid text => s!"`{Response.escapeMarkup text}` is not a valid color."
  | missing => "No color given."

def colorPage (r : ColorRequest) : String :=
  s!"<html><body><p>{r.answer}</p><p><a href=\"/index2.html\">Back home</a></p></body></html>"

/-- An operand of the sum: the parameter if it is a whole number. -/
def operand (params : Params) (name : String) (default : Int64) : Int64 :=
  ((params.get? name).bind fun v => Decimal.readInt64? (Text.trim v).toList).getD default

end Page

namespace Handler

/-- The session's parameter for the background color. -/
def colorParameter : String := "bgcolor"

def defaultColor : String := "7F7F7F"

def homePage : String := "/private/pages/home.smscr"

def sumPage : String := "/private/pages/calc.smscr"

def answerWith (page : String) : Action Response.Error Unit := do
  Exchange.setMimeType "text/html"
  Exchange.writeText page

/-- The response of a handler that answers by itself. -/
def answering (act : Action Response.Error Unit) : Action HandlerError Next := do
  EStateM.adaptExcept HandlerError.response act
  return .done

/-- What a color request leaves in the session. -/
def rememberColor : Page.ColorRequest → Exchange → Exchange
  | .color digits => Exchange.setPersistent colorParameter digits
  | _ => id

def rememberSum (a b sum : Int64) (ex : Exchange) : Exchange :=
  let image := if sum.toInt % 2 = 0 then "even.png" else "odd.png"
  [("varA", Decimal.intText a.toInt), ("varB", Decimal.intText b.toInt),
   ("zbroj", Decimal.intText sum.toInt), ("imgName", image)].foldl
    (fun ex p => ex.setTemporary p.1 p.2) ex

def run : Handler → Action HandlerError Next
  | hello => do answering (answerWith (Page.greeting ((← get).query.get? "name")))
  | echoParams => do answering (answerWith (Page.parameterTable (← get).query))
  | bgColor => do
    let r := Page.ColorRequest.ofText? ((← get).query.get? colorParameter)
    answering do
      Exchange.setMimeType "text/html"
      Exchange.modifying (rememberColor r)
      Exchange.writeText (Page.colorPage r)
  | sum => do
    let params := (← get).query
    let a := Page.operand params "a" 1
    let b := Page.operand params "b" 2
    match Decimal.Int64Arith.add? a b with
    | none => throw (.sumOverflow a b)
    | some s => do
      Exchange.modifying (rememberSum a b s)
      return .forward sumPage
  | home => do
    let color := ((← get).persistent.get? colorParameter).getD defaultColor
    Exchange.modifying (Exchange.setTemporary "background" color)
    return .forward homePage

end Handler

end PageServer.Site
