import PageServer.Request.Cookies
import PageServer.Request.Error
import PageServer.Text.Encoding

/-!
# Requests

The header of a request is ISO-8859-1 text: a request line and fields, one a
line. A line that begins with a blank continues the one before it. Only `GET`
of a path is answered, in two versions of the protocol.
-/

namespace PageServer

namespace Request

inductive Version where
  | http10
  | http11
  deriving DecidableEq, Repr

def Version.all : List Version := [http10, http11]

def Version.text : Version → String
  | http10 => "HTTP/1.0"
  | http11 => "HTTP/1.1"

/-- The only method that is answered. -/
def method : String := "GET"

end Request

structure Request where
  /-- Path and query as they were sent. -/
  target : String
  version : Request.Version
  fields : List (String × String)
  deriving DecidableEq, Repr

namespace Request

/-! ### Lines -/

def continues (line : List Char) : Bool :=
  line.head? == some ' ' || line.head? == some '\t'

/-- Adds a line to those before it, last first. -/
def addLine : List (List Char) → List Char → List (List Char)
  | [], line => [line]
  | previous :: before, line =>
    if continues line then (previous ++ ' ' :: Text.trimChars line) :: before
    else line :: previous :: before

/-- The lines of a header, empty ones left out and continuations joined. -/
def headerLines (header : Bytes) : List String :=
  let lines := (Text.splitAt '\n' (Text.ofLatin1 header)).map (Text.chop '\r')
  ((lines.filter fun l => !l.isEmpty).foldl addLine []).reverse.map String.ofList

/-! ### Request line and fields -/

def parseLine (line : String) : Except Error (String × Version) :=
  match (Text.words line.toList).map String.ofList with
  | [verb, target, version] =>
    if verb ≠ method then .error (.unsupportedMethod verb)
    else
      match Version.all.find? fun v => v.text == version with
      | none => .error (.unsupportedVersion version)
      | some v =>
        if target.toList.head? = some '/' then .ok (target, v) else .error (.malformedLine line)
  | _ => .error (.malformedLine line)

def parseField? (line : String) : Option (String × String) :=
  (Text.cut? ':' line).map fun r => (Text.trim r.1, Text.trim r.2)

/-- The request of a header. Lines that are no fields are skipped. -/
def parse (header : Bytes) : Except Error Request := do
  let lines := headerLines header
  let (target, version) ← parseLine (lines.headD "")
  return ⟨target, version, lines.tail.filterMap parseField?⟩

/-! ### Looking up fields -/

def isNamed (name : String) (field : String × String) : Bool :=
  Text.asciiLower field.1 == Text.asciiLower name

def field? (r : Request) (name : String) : Option String :=
  (r.fields.find? (isNamed name)).map Prod.snd

def cookies (r : Request) : Table String :=
  .ofList ((r.fields.filter (isNamed "cookie")).flatMap fun f => cookiePairs f.2)

/-- The part of a host field that names the host: without the port, but with
the brackets of a numeric address. -/
def hostName (value : List Char) : List Char :=
  match value with
  | '[' :: _ =>
    match Text.cutBy? (· == ']') value with
    | some (address, _) => address ++ [']']
    | none => value
  | _ => value.takeWhile (· != ':')

def host? (r : Request) : Option String :=
  match r.field? "host" with
  | none => none
  | some value =>
    let name := hostName (Text.trimChars value.toList)
    if name.isEmpty then none else some (String.ofList name)

end Request

end PageServer
