import PageServer.Decimal.Digits
import PageServer.Response.Error

/-!
# Cookies of a response

A cookie is written as its name and quoted value, followed by the attributes it
has. It is valid if none of its texts can end the value, the attribute or the
line that it stands in.
-/

namespace PageServer.Response

structure Cookie where
  name : String
  value : String
  domain : Option String
  path : Option String
  maxAge : Option UInt64
  httpOnly : Bool
  deriving DecidableEq, Repr

namespace Cookie

def plain (name value : String) : Cookie :=
  ⟨name, value, none, none, none, false⟩

/-- The characters that would end a part of a cookie. -/
def breaksOut (c : Char) : Bool :=
  Text.isControl c || c == '"' || c == ';'

/-- The texts of a cookie under the names errors give them. -/
def texts (c : Cookie) : List (HeadField × Option String) :=
  [(.cookieName, some c.name), (.cookieValue, some c.value), (.cookieDomain, c.domain),
   (.cookiePath, c.path)]

/-- The first text of the cookie that it cannot be written with. -/
def fault? (c : Cookie) : Option Error :=
  let broken := c.texts.findSome? fun (field, text) =>
    text.bind fun t => if t.toList.any breaksOut then some (field, t) else none
  match broken with
  | some (field, t) => some (.invalidValue field t)
  | none =>
    if c.name.isEmpty || c.name.toList.any (fun x => x == '=' || x == ' ') then
      some (.invalidValue .cookieName c.name)
    else none

def optional (label : String) : Option String → String
  | none => ""
  | some v => s!"; {label}={v}"

def text (c : Cookie) : String :=
  c.name ++ "=\"" ++ c.value ++ "\"" ++ optional "Domain" c.domain ++ optional "Path" c.path ++
    optional "Max-Age" (c.maxAge.map fun n => Decimal.natText n.toNat) ++
    if c.httpOnly then "; HttpOnly" else ""

end Cookie

end PageServer.Response
