import PageServer.Connection.Reception
import PageServer.Session.Store
import PageServer.Site.Dispatch

/-!
# Serving a connection

One connection brings one request. A request that cannot be read is rejected
without touching the sessions. Any other one is given its session, whose cookie
goes with the answer if it is new, and the path is dispatched. A failure is
answered with an error page as long as the head was not sent; later ones leave
the answer as far as it got.
-/

namespace PageServer

structure Server where
  site : Site
  /-- The cookie domain of requests that name no usable host. -/
  domain : String
  /-- The most bytes a request header may have. -/
  headerLimit : Nat

namespace Connection

open Exchange (after)

def sessionCookie (id domain : String) : Response.Cookie :=
  ⟨Session.cookieName, id, some domain, some "/", none, true⟩

/-- The cookie of a new session: for the host that the request names, or for
the server's own domain if that host cannot stand in a cookie. -/
def newCookie (server : Server) (request : Request) (id : String) : Response.Cookie :=
  let named := sessionCookie id (request.host?.getD server.domain)
  match named.fault? with
  | none => named
  | some _ => sessionCookie id server.domain

structure Failure where
  status : UInt16
  message : String
  deriving DecidableEq, Repr

def Failure.ofRequest (e : Request.Error) : Failure := ⟨e.status, e.message⟩

def Failure.ofDispatch (e : Site.DispatchError) : Failure := ⟨e.status, e.message⟩

def reject (e : Request.Error) (sink : Sink) : Sink :=
  let page := Exchange.sendError e.status e.message
  (after page (Exchange.start sink .empty .empty [] none)).sink

/-- Shows a failure to the client if nothing was sent yet. -/
def report (f : Failure) (ex : Exchange) : Exchange :=
  if ex.committed then ex else after (Exchange.sendError f.status f.message) ex

/-- Answers in an exchange whose query could be read, or could not. There is no
answer if the dispatch does not end within its bounds. -/
def answer (server : Server) (bounds : Bounds) (path : String)
    (query : Except Request.Error Params) (ex : Exchange) : Option Exchange :=
  match query with
  | .error e => some (report (.ofRequest e) ex)
  | .ok _ =>
    match server.site.dispatch bounds path true ex with
    | .ok () ex => some ex
    | .error (.failed e) ex => some (report (.ofDispatch e) ex)
    | .error .cutOff _ => none

def openExchange (server : Server) (incoming : Incoming) (resolved : Resolved) (params : Params)
    (query : Except Request.Error Params) (sink : Sink) : Exchange :=
  let query := match query with
    | .ok q => q
    | .error _ => .empty
  let cookies := if resolved.isNew then [newCookie server incoming.request resolved.id] else []
  Exchange.start sink query params cookies (some server.site)

/-- Answers an accepted request and leaves its session's parameters in the
store. -/
def respond (server : Server) (bounds : Bounds) (store : SessionStore) (resolved : Resolved)
    (incoming : Incoming) (sink : Sink) : Option (Sink × SessionStore) := do
  let query := Request.parameters incoming.query
  let ex := openExchange server incoming resolved (store.params resolved.params) query sink
  let ex ← answer server bounds incoming.path query ex
  let ex := after Exchange.finish ex
  return (ex.sink, store.setParams resolved.params ex.persistent)

end Connection

namespace Server

/-- Serves one connection at a time given in seconds, drawing names for new
sessions. There is no result if no name drawn is free or the dispatch does not
end within its bounds. -/
def serve (server : Server) (bounds : Bounds) (store : SessionStore) (draws : List String)
    (now : UInt64) (stream : List Request.Arrival) (sink : Sink) : Option (Sink × SessionStore) :=
  match Connection.receive server.headerLimit stream with
  | .closed => some (sink, store)
  | .rejected e => some (Connection.reject e sink, store)
  | .accepted incoming => do
    let presented := incoming.request.cookies.get? Session.cookieName
    let (resolved, store) ← store.resolve draws presented now
    Connection.respond server bounds store resolved incoming sink

end Server

end PageServer
