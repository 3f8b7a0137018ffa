import PageServer.Site.Page
import PageServer.Site.StaticFile
import PageServer.Template.Render

/-!
# Dispatch

A path of a site leads to a mounted handler, a template, a handler given by
name or a static file, looked for in this order. Where a path leads is decided
from its canonical form and the tables of the site alone. Clients do not reach
the paths below the internal prefix; pages that handlers lead to may be there.
-/

namespace PageServer.Site

open Exchange (Action)

inductive DispatchError where
  | forbidden (path : String)
  | notFound (path : String)
  | malformedTemplate (path : String) (e : Template.ParseError)
  | templateFailed (path : String) (e : Template.RenderError)
  | unknownHandler (name : String)
  | handlerFailed (name : String) (e : HandlerError)
  | unreadable (path : String) (e : ReadError)
  /-- A page was needed outside of any site. -/
  | noSite
  | response (e : Response.Error)
  deriving DecidableEq, Repr

namespace DispatchError

def message : DispatchError → String
  | forbidden path => s!"access to `{path}` is forbidden"
  | notFound path => s!"`{path}` was not found"
  | malformedTemplate path e => s!"cannot parse script `{path}`: {e.message}"
  | templateFailed path e => s!"script `{path}` failed: {e.message}"
  | unknownHandler name => s!"no handler named `{name}`"
  | handlerFailed name e => s!"handler `{name}` failed: {e.message}"
  | unreadable path e => s!"cannot read `{path}`: {e.message}"
  | noSite => "context has no dispatcher attached"
  | response e => e.message

def status : DispatchError → UInt16
  | forbidden _ => 403
  | notFound _ => 404
  | _ => 500

end DispatchError

inductive Target where
  /-- A handler and the name its failures are reported with. -/
  | handler (h : Handler) (label : String)
  | template (names : List String) (path : String)
  | staticFile (names : List String) (path : String)
  deriving DecidableEq, Repr

/-- What a path without names stands for. -/
def indexNames : List String := ["index.html"]

def templateEnding : String := ".smscr"

def handlerPrefix : String := "/ext/"

/-- Whether a path in canonical form is the internal prefix or below it. -/
def isInternal (s : Site) (path : String) : Bool :=
  !s.internalPrefix.isEmpty &&
    match Text.strip? s.internalPrefix.toList path.toList with
    | some [] => true
    | some (c :: _) => c == '/'
    | none => false

/-- The handler that a single component names. -/
def namedHandler (name : String) : Except DispatchError Target :=
  match Handler.ofName? name with
  | some h =>
    if name.isEmpty || name.toList.contains '/' then .error (.unknownHandler name)
    else .ok (.handler h name)
  | none => .error (.unknownHandler name)

/-- Where a path leads. It is direct if a client asked for it. -/
def route (s : Site) (path : String) (direct : Bool) : Except DispatchError Target :=
  match names? (components path) with
  | none => .error (.forbidden path)
  | some names =>
    let names := if names.isEmpty then indexNames else names
    let path := absolute names
    if direct && s.isInternal path then .error (.forbidden path)
    else
      match s.workers.get? path with
      | some h => .ok (.handler h path)
      | none =>
        if endsIn templateEnding path then .ok (.template names path)
        else
          match Text.strip? handlerPrefix.toList path.toList with
          | some name => namedHandler (String.ofList name)
          | none => .ok (.staticFile names path)

def readTemplate (s : Site) (names : List String) (path : String) :
    Except DispatchError Template.Document :=
  match s.files.file? names with
  | none => .error (.notFound path)
  | some content =>
    match Text.ofUtf8? content with
    | none => .error (.unreadable path .notText)
    | some source => (Template.parse source).mapError (.malformedTemplate path)

def serve (s : Site) (iterations : Nat) : Target → Action (Stop DispatchError) Next
  | .handler h label => EStateM.adaptExcept (fun e => .failed (.handlerFailed label e)) h.run
  | .template names path =>
    match s.readTemplate names path with
    | .error e => throw (.failed e)
    | .ok d => do
      EStateM.adaptExcept (Stop.map (.templateFailed path)) (d.render iterations)
      return .done
  | .staticFile names path =>
    match s.staticFile names with
    | .error _ => throw (.failed (.notFound path))
    | .ok f => do
      EStateM.adaptExcept (fun e => .failed (.response e)) (Exchange.sendFile f)
      return .done

def visit (s : Site) (iterations : Nat) (path : String) (direct : Bool) :
    Action (Stop DispatchError) Next :=
  match s.route path direct with
  | .error e => throw (.failed e)
  | .ok target => s.serve iterations target

/-- Answers a path and the pages it leads to, at most so many. These are pages
of the exchange's own site. -/
def dispatchWithin (iterations : Nat) : Nat → Site → String → Bool →
    Action (Stop DispatchError) Unit
  | 0, _, _, _ => throw .cutOff
  | pages + 1, s, path, direct => do
    match ← s.visit iterations path direct with
    | .done => pure ()
    | .forward path =>
      match (← get).site with
      | none => throw (.failed .noSite)
      | some s => dispatchWithin iterations pages s path false

theorem dispatchWithin_succ (iterations pages : Nat) (s : Site) (path : String) (direct : Bool)
    (ex : Exchange) :
    dispatchWithin iterations (pages + 1) s path direct ex =
      match s.visit iterations path direct ex with
      | .error e ex => .error e ex
      | .ok .done ex => .ok () ex
      | .ok (.forward path) ex =>
        match ex.site with
        | none => .error (.failed .noSite) ex
        | some s => dispatchWithin iterations pages s path false ex := by
  simp only [dispatchWithin, bind, EStateM.bind]
  cases s.visit iterations path direct ex with
  | error e ex => rfl
  | ok next ex =>
    cases next with
    | done => rfl
    | forward path =>
      obtain ⟨head, committed, sink, query, persistent, temporary, site⟩ := ex
      cases site <;> rfl

def dispatch (s : Site) (bounds : Bounds) (path : String) (direct : Bool) :
    Action (Stop DispatchError) Unit :=
  dispatchWithin bounds.iterations bounds.pages s path direct

end PageServer.Site

namespace PageServer.Exchange

/-- Answers with an inner page of the exchange's site. -/
def nested (bounds : Bounds) (path : String) : Action (Stop Site.DispatchError) Unit :=
  fun ex =>
    match ex.site with
    | none => .error (.failed .noSite) ex
    | some s => s.dispatch bounds path false ex

end PageServer.Exchange
