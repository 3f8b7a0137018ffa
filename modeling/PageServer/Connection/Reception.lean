import PageServer.Request.Basic
import PageServer.Request.Header
import PageServer.Request.Query

/-!
# Receiving a request

A connection either brings a request that can be answered, or one that has to
be rejected, or closes before there is anything to answer.
-/

namespace PageServer.Connection

/-- A request whose path is decoded. Its query is read later, when the session
is known. -/
structure Incoming where
  request : Request
  path : String
  query : Option String
  deriving DecidableEq, Repr

inductive Reception where
  | closed
  | rejected (e : Request.Error)
  | accepted (incoming : Incoming)
  deriving DecidableEq, Repr

def readRequest (header : Bytes) : Except Request.Error Incoming := do
  let request ← Request.parse header
  let (path, query) := Request.splitTarget request.target
  let path ← Request.decode false path
  return ⟨request, path, query⟩

def receive (limit : Nat) (stream : List Request.Arrival) : Reception :=
  match Request.readHeader limit stream with
  | .ok none => .closed
  | .error .readFailed => .closed
  | .error e => .rejected e
  | .ok (some header) =>
    match readRequest header with
    | .ok incoming => .accepted incoming
    | .error e => .rejected e

end PageServer.Connection
