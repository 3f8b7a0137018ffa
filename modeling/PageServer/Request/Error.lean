import PageServer.Decimal.Digits

/-!
# Refusals of a request

What can be wrong with a request before it is answered. All of it is the
client's doing, except that reading may fail.
-/

namespace PageServer.Request

inductive Error where
  | headerTooLarge (limit : Nat)
  | malformedLine (line : String)
  | unsupportedMethod (method : String)
  | unsupportedVersion (version : String)
  | malformedQuery (pair : String)
  | badEncoding (text : String)
  | readFailed
  deriving DecidableEq, Repr

namespace Error

def message : Error → String
  | headerTooLarge limit => s!"request header exceeds {Decimal.natText limit} bytes"
  | malformedLine line => s!"malformed request line `{line}`"
  | unsupportedMethod method => s!"method `{method}` is not supported"
  | unsupportedVersion version => s!"protocol version `{version}` is not supported"
  | malformedQuery pair => s!"malformed query parameter `{pair}`"
  | badEncoding text => s!"malformed percent-encoding in `{text}`"
  | readFailed => "read failed"

def status : Error → UInt16
  | _ => 400

end Error

end PageServer.Request
