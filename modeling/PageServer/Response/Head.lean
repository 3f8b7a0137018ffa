import PageServer.Response.Cookie
import PageServer.Text.Encoding
import PageServer.Text.Split

/-!
# The head of a response

Status line, content type, length and cookies, one line each, and an empty line
after them. The head is always sent in ISO-8859-1; the encoding it names is the
one of the body.
-/

namespace PageServer.Response

structure Head where
  status : UInt16
  reason : String
  mimeType : String
  encoding : Text.Encoding
  contentLength : Option UInt64
  cookies : List Cookie
  deriving DecidableEq, Repr

namespace Head

def initial (cookies : List Cookie) : Head :=
  ⟨200, "OK", "text/html", .utf8, none, cookies⟩

def lineEnd : String := "\r\n"

/-- Only text has a character set. -/
def contentType (h : Head) : String :=
  if (Text.strip? "text/".toList h.mimeType.toList).isSome then
    h.mimeType ++ "; charset=" ++ h.encoding.label
  else h.mimeType

def lines (h : Head) : List String :=
  ["HTTP/1.1 " ++ Decimal.natText h.status.toNat ++ " " ++ h.reason,
   "Content-Type: " ++ h.contentType] ++
  (h.contentLength.map fun n => "Content-Length: " ++ Decimal.natText n.toNat).toList ++
  h.cookies.map fun c => "Set-Cookie: " ++ c.text

def text (h : Head) : String :=
  String.join (h.lines.map (· ++ lineEnd)) ++ lineEnd

def bytes (h : Head) : Bytes :=
  Text.latin1Bytes h.text

end Head

end PageServer.Response
