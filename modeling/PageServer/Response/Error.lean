import PageServer.Text.Visible

/-!
# Refusals of a response

A response refuses a change of its head that comes too late or would break the
head's lines, and its sink may refuse bytes.
-/

namespace PageServer.Response

/-- The parts of a response head, as errors name them. -/
inductive HeadField where
  | statusCode | statusText | mimeType | encoding | contentLength | cookies
  | cookieName | cookieValue | cookieDomain | cookiePath
  deriving DecidableEq, Repr

def HeadField.label : HeadField → String
  | statusCode => "status code"
  | statusText => "status text"
  | mimeType => "mime type"
  | encoding => "encoding"
  | contentLength => "content length"
  | cookies => "cookies"
  | cookieName => "cookie name"
  | cookieValue => "cookie value"
  | cookieDomain => "cookie domain"
  | cookiePath => "cookie path"

inductive Error where
  | headCommitted (field : HeadField)
  | unsupportedEncoding (label : String)
  | invalidValue (field : HeadField) (value : String)
  | sinkFull
  deriving DecidableEq, Repr

def Error.message : Error → String
  | headCommitted f => s!"cannot change {f.label}: response header was already written"
  | unsupportedEncoding label => s!"unsupported character encoding `{label}`"
  | invalidValue f v => s!"invalid {f.label} `{Text.visible v}` for a response header"
  | sinkFull => "sink full"

end PageServer.Response
