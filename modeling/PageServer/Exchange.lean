import PageServer.Response.Head
import PageServer.Response.Status
import PageServer.Sink
import PageServer.Site.Basic

/-!
# Exchanges

An exchange is the answering of one request: the head of the response as far as
it was set, whether it was sent, the sink it is sent to, and the three kinds of
parameters. The head is sent right before the first byte of the body; from then
on every change of it is refused. A head or body that the sink refuses leaves
the rest of the exchange as it was.
-/

namespace PageServer

abbrev Params := Table String

structure Exchange where
  head : Response.Head
  committed : Bool
  sink : Sink
  /-- Parameters of the request, never changed. -/
  query : Params
  /-- Parameters of the session. -/
  persistent : Params
  /-- Parameters of this exchange only. -/
  temporary : Params
  /-- The site that nested pages are taken from. -/
  site : Option Site

/-- An action on an exchange. What it did before failing stays done. -/
abbrev Exchange.Action (ε α : Type) := EStateM ε Exchange α

namespace Exchange

/-- The exchange after an action; what made it fail is dropped. -/
def after {ε α : Type} (act : Action ε α) (ex : Exchange) : Exchange :=
  match act ex with
  | .ok _ ex => ex
  | .error _ ex => ex

open Response (Cookie Head HeadField)

def start (sink : Sink) (query persistent : Params) (cookies : List Cookie)
    (site : Option Site) : Exchange :=
  ⟨.initial cookies, false, sink, query, persistent, .empty, site⟩

/-! ### Setting the head -/

/-- Changes the head unless it was sent or the change is at fault. -/
def change (field : HeadField) (fault : Option Response.Error) (f : Head → Head) :
    Action Response.Error Unit := fun ex =>
  if ex.committed then .error (.headCommitted field) ex
  else
    match fault with
    | some e => .error e ex
    | none => .ok () { ex with head := f ex.head }

/-- Text of the head stays on its line. -/
def lineFault? (field : HeadField) (text : String) : Option Response.Error :=
  if text.toList.any Text.isControl then some (.invalidValue field text) else none

def setStatusCode (code : UInt16) : Action Response.Error Unit :=
  change .statusCode none fun h => { h with status := code }

def setStatusText (text : String) : Action Response.Error Unit :=
  change .statusText (lineFault? .statusText text) fun h => { h with reason := text }

/-- Sets a status together with its reason phrase. -/
def setStatus (code : UInt16) : Action Response.Error Unit := do
  setStatusCode code
  setStatusText (Response.reason code)

def setMimeType (mime : String) : Action Response.Error Unit :=
  change .mimeType (lineFault? .mimeType mime) fun h => { h with mimeType := mime }

def setEncoding (label : String) : Action Response.Error Unit :=
  match Text.Encoding.ofLabel? label with
  | some e => change .encoding none fun h => { h with encoding := e }
  | none => change .encoding (some (.unsupportedEncoding label)) id

def setContentLength (n : UInt64) : Action Response.Error Unit :=
  change .contentLength none fun h => { h with contentLength := some n }

def addCookie (c : Cookie) : Action Response.Error Unit :=
  change .cookies c.fault? fun h => { h with cookies := h.cookies ++ [c] }

/-! ### Writing -/

def send (data : Bytes) : Action Response.Error Unit := fun ex =>
  if ex.sink.takes data then .ok () { ex with sink := ex.sink.push data }
  else .error .sinkFull { ex with sink := ex.sink.refuse }

/-- Sends the head if it was not sent yet. -/
def commit : Action Response.Error Unit := fun ex =>
  if ex.committed then .ok () ex
  else
    match send ex.head.bytes ex with
    | .ok () ex => .ok () { ex with committed := true }
    | .error e ex => .error e ex

def write (data : Bytes) : Action Response.Error Unit := do
  commit
  send data

def writeText (text : String) : Action Response.Error Unit := fun ex =>
  write (ex.head.encoding.encode text) ex

/-- Completes the response: a head that was never needed is sent now. -/
def finish : Action Response.Error Unit :=
  commit

/-! ### Parameters -/

def setPersistent (key value : String) (ex : Exchange) : Exchange :=
  { ex with persistent := ex.persistent.insert key value }

def erasePersistent (key : String) (ex : Exchange) : Exchange :=
  { ex with persistent := ex.persistent.erase key }

def setTemporary (key value : String) (ex : Exchange) : Exchange :=
  { ex with temporary := ex.temporary.insert key value }

def eraseTemporary (key : String) (ex : Exchange) : Exchange :=
  { ex with temporary := ex.temporary.erase key }

/-- A change that cannot fail, as an action. -/
def modifying {ε : Type} (f : Exchange → Exchange) : Action ε Unit := fun ex =>
  .ok () (f ex)

end Exchange

end PageServer
