import PageServer.Table
import PageServer.Text.Split

/-!
# Cookies of a request

A cookie header is a list of pairs between semicolons. Quotes around a whole
value are not part of it; a pair without a name is skipped.
-/

namespace PageServer.Request

/-- A text without the quotes around it, if it has both. -/
def unquote (cs : List Char) : List Char :=
  match cs with
  | '"' :: rest => if rest.getLast? = some '"' then rest.dropLast else cs
  | _ => cs

def cookiePair? (pair : List Char) : Option (String × String) :=
  let pair := Text.trimChars pair
  let (name, value) := (Text.cutBy? (· == '=') pair).getD (pair, [])
  let name := Text.trimChars name
  if name.isEmpty then none
  else some (String.ofList name, String.ofList (unquote (Text.trimChars value)))

def cookiePairs (header : String) : List (String × String) :=
  (Text.splitAt ';' header.toList).filterMap cookiePair?

/-- The cookies of one header; of several with one name the last counts. -/
def parseCookies (header : String) : Table String :=
  .ofList (cookiePairs header)

end PageServer.Request
