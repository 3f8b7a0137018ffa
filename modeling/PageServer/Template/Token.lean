import PageServer.Decimal.Digits

/-!
# Template tokens

A template is literal text with directives between `{$` and `$}`. Outside
directives there are text and opening marks, inside there are names, numbers,
strings, functions, operators and the closing mark.
-/

namespace PageServer.Template

open Decimal (natText)

inductive Token where
  | tagOpen
  | tagClose
  /-- Literal text, escapes resolved. -/
  | text (s : String)
  | name (s : String)
  | integer (v : Int64)
  | double (x : Float)
  /-- A string literal, escapes resolved. -/
  | string (s : String)
  /-- A function name without its `@`. -/
  | function (s : String)
  | operator (c : Char)
  | endOfInput
  deriving BEq

/-- A token without what it carries. -/
inductive TokenKind where
  | tagOpen | tagClose | text | name | integer | double | string | function | operator | endOfInput
  deriving DecidableEq, Repr

namespace Token

def kind : Token → TokenKind
  | tagOpen => .tagOpen
  | tagClose => .tagClose
  | text _ => .text
  | name _ => .name
  | integer _ => .integer
  | double _ => .double
  | string _ => .string
  | function _ => .function
  | operator _ => .operator
  | endOfInput => .endOfInput

def isEnd (t : Token) : Bool :=
  t.kind = .endOfInput

end Token

def TokenKind.label : TokenKind → String
  | tagOpen => "tag-open"
  | tagClose => "tag-close"
  | text => "text"
  | name => "variable"
  | integer => "integer"
  | double => "double"
  | string => "string"
  | function => "function"
  | operator => "operator"
  | endOfInput => "end-of-input"

/-- Why no token could be read. Positions count characters from the start of
the template. -/
inductive ScanError where
  /-- The end of the input was read before. -/
  | exhausted
  | invalidEscape (c : Char) (position : Nat)
  | trailingBackslash (position : Nat)
  | unterminatedDirective (position : Nat)
  | unterminatedString (position : Nat)
  | integerOverflow (literal : String) (position : Nat)
  | invalidFunctionName (position : Nat)
  | unexpectedChar (c : Char) (position : Nat)
  deriving DecidableEq, Repr

def ScanError.message : ScanError → String
  | exhausted => "no more tokens: end of input was already returned"
  | invalidEscape c n =>
    s!"invalid escape sequence `\\{c.toString}` at offset {natText n}"
  | trailingBackslash n => s!"dangling backslash at offset {natText n}"
  | unterminatedDirective n =>
    s!"directive opened but input ended at offset {natText n} before `$\x7d`"
  | unterminatedString n => s!"string literal starting at offset {natText n} is never closed"
  | integerOverflow literal n =>
    s!"integer literal `{literal}` at offset {natText n} does not fit in 64 bits"
  | invalidFunctionName n => s!"`@` at offset {natText n} is not followed by a function name"
  | unexpectedChar c n => s!"unexpected character `{c.toString}` at offset {natText n}"

/-- Whether a character may stand in a name after its first letter. -/
def isNameChar (c : Char) : Bool :=
  c.isAlphanum || c == '_'

/-- A name starts with a letter. -/
def isName : List Char → Bool
  | [] => false
  | c :: cs => c.isAlpha && cs.all isNameChar

/-- The operators that may stand in a directive; `=` only opens one. -/
def operators : List Char :=
  ['+', '-', '*', '/', '^', '=']

/-- The keyword that closes a loop, as every spelling of it is read. -/
def endKeyword : String :=
  "END"

def forKeyword : String :=
  "FOR"

/-- Whether a name spells a keyword in any letter case. -/
def spells (keyword : String) (name : List Char) : Bool :=
  name.map Char.toUpper == keyword.toList

end PageServer.Template
