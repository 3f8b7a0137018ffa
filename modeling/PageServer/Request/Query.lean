import PageServer.Request.Error
import PageServer.Table
import PageServer.Text.Encoding
import PageServer.Text.Split

/-!
# Paths and queries of a request target

A target is a path and, after its first question mark, a query: pairs joined by
`&`, of which empty ones say nothing. Characters that mean something stand in
either as the percent escapes of their bytes, in a query a space also as `+`.
-/

namespace PageServer.Request

def splitTarget (target : String) : String × Option String :=
  match Text.cut? '?' target with
  | some (path, query) => (path, some query)
  | none => (target, none)

/-- The bytes that a text with percent escapes stands for, unless an escape
lacks its two digits. -/
def escapedBytes? : List Char → Option Bytes
  | [] => some []
  | '%' :: a :: b :: rest =>
    match Text.hexValue? a, Text.hexValue? b with
    | some x, some y => (escapedBytes? rest).map (UInt8.ofNat (16 * x + y) :: ·)
    | _, _ => none
  | c :: rest =>
    if c = '%' then none else (escapedBytes? rest).map (String.utf8EncodeChar c ++ ·)

def spacesForPlus (text : String) : String :=
  String.ofList (text.toList.map fun c => if c = '+' then ' ' else c)

/-- The text that a component of a target stands for. -/
def decode (plusIsSpace : Bool) (text : String) : Except Error String :=
  match escapedBytes? text.toList with
  | none => .error (.badEncoding text)
  | some _ =>
    let text := if plusIsSpace then spacesForPlus text else text
    match (escapedBytes? text.toList).bind Text.ofUtf8? with
    | some decoded => .ok decoded
    | none => .error (.badEncoding text)

def decodePair (pair : String) : Except Error (String × String) :=
  match Text.cut? '=' pair with
  | none => .error (.malformedQuery pair)
  | some (key, value) => do
    let key ← decode true key
    if key.isEmpty then .error (.malformedQuery pair)
    else
      let value ← decode true value
      return (key, value)

def queryPairs (query : String) : List String :=
  ((Text.splitAt '&' query.toList).filter fun p => !p.isEmpty).map String.ofList

/-- The parameters of a query; of several with one name the last counts. -/
def parseQuery (query : String) : Except Error (Table String) :=
  ((queryPairs query).mapM decodePair).map .ofList

/-- The parameters of a target, which may have no query. -/
def parameters : Option String → Except Error (Table String)
  | none => .ok .empty
  | some query => parseQuery query

end PageServer.Request
