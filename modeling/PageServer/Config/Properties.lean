import PageServer.Decimal.Digits
import PageServer.Table
import PageServer.Text.Split

/-!
# Properties

A properties text has a key and a value on each line, with `=` or `:` between
them. Blank lines and lines that begin with `#` or `!` say nothing. Errors
count every line from one.
-/

namespace PageServer.Config

inductive PropertiesError where
  | noSeparator (line : Nat) (text : String)
  | emptyKey (line : Nat)
  deriving DecidableEq, Repr

def PropertiesError.message : PropertiesError → String
  | noSeparator line text =>
    s!"line {Decimal.natText line}: expected `key = value`, found `{text}`"
  | emptyKey line => s!"line {Decimal.natText line}: empty key"

namespace Properties

inductive Line where
  | nothing
  | pair (key value : String)
  | noSeparator (text : String)
  | emptyKey
  deriving DecidableEq, Repr

def isSeparator (c : Char) : Bool :=
  c == '=' || c == ':'

def isSilent (line : List Char) : Bool :=
  match line with
  | [] => true
  | c :: _ => c == '#' || c == '!'

def Line.ofChars (line : List Char) : Line :=
  let line := Text.trimChars line
  if isSilent line then .nothing
  else
    match Text.cutBy? isSeparator line with
    | none => .noSeparator (String.ofList line)
    | some (key, value) =>
      let key := Text.trimChars key
      if key.isEmpty then .emptyKey
      else .pair (String.ofList key) (String.ofList (Text.trimChars value))

/-- The pairs of lines, the first of which has the given number. -/
def pairs : Nat → List (List Char) → Except PropertiesError (List (String × String))
  | _, [] => .ok []
  | number, line :: rest =>
    match Line.ofChars line with
    | .nothing => pairs (number + 1) rest
    | .pair key value => (pairs (number + 1) rest).map ((key, value) :: ·)
    | .noSeparator text => .error (.noSeparator number text)
    | .emptyKey => .error (.emptyKey number)

/-- The table that a text describes; of several lines with one key the last
counts. -/
def parse (text : String) : Except PropertiesError (Table String) :=
  (pairs 1 (Text.lines text.toList)).map .ofList

end Properties

end PageServer.Config
