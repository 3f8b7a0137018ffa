import PageServer.Text.Split

/-!
# Places in a YAML text

Which characters a text may hold, which of them set its parts apart, and where
in it a reader stands. Lines end in a line feed or in one of the separators of
Unicode; all other line ends are first written as line feeds.
-/

namespace PageServer.Yaml

/-! ### Characters -/

def isPrintable (c : Char) : Bool :=
  let n := c.toNat
  c == '\t' || c == '\n' || c == '\r' || n == 0x85 || (0x20 ≤ n && n ≤ 0x7e) ||
    (0xa0 ≤ n && n ≤ 0xfffd) || 0x10000 ≤ n

/-- Carriage returns and next-line characters as line feeds. -/
def normalizeEnds : List Char → List Char
  | [] => []
  | '\r' :: '\n' :: cs => '\n' :: normalizeEnds cs
  | c :: cs => (if c == '\r' || c == '\u0085' then '\n' else c) :: normalizeEnds cs

def isLineEnd (c : Char) : Bool :=
  c == '\n' || c == '\u2028' || c == '\u2029'

def isSpace (c : Char) : Bool :=
  c == ' ' || c == '\t'

/-- Whether what follows a mark sets it apart. -/
def isApart : List Char → Bool
  | [] => true
  | c :: _ => isSpace c || isLineEnd c

/-- A character of the name of an anchor or a directive. -/
def isNameChar (c : Char) : Bool :=
  c.isAlphanum || c == '_' || c == '-'

/-- Marks of collections between brackets. -/
def isFlowMark (c : Char) : Bool :=
  c == ',' || c == '[' || c == ']' || c == '\x7b' || c == '\x7d'

def isQuote (c : Char) : Bool :=
  c == '"' || c == '\''

def isMark (c : Char) : Bool :=
  isFlowMark c || isQuote c || "#&*!|>%@`".toList.contains c

/-! ### Lines -/

def startMark : String := "---"

def endMark : String := "..."

def isMarked (mark : String) (line : List Char) : Bool :=
  match Text.strip? mark.toList line with
  | some rest => isApart rest
  | none => false

def isBoundary (line : List Char) : Bool :=
  isMarked startMark line || isMarked endMark line

/-- What is left of a text from the end of its first line on. -/
def dropLine (cs : List Char) : List Char :=
  cs.dropWhile fun c => !isLineEnd c

/-- What is left of a line that says nothing more than a comment, after its
line end. -/
def endLine? (cs : List Char) : Option (List Char) :=
  let cs := cs.dropWhile isSpace
  let cs := if cs.head? == some '#' then dropLine cs else cs
  match cs with
  | [] => some []
  | c :: cs => if isLineEnd c then some cs else none

/-! ### Places -/

/-- What is left of a text, and the line and column that it begins in. -/
structure Place where
  rest : List Char
  line : Nat
  column : Nat
  deriving DecidableEq, Repr

namespace Place

def behind (c : Char) (rest : List Char) (p : Place) : Place :=
  if isLineEnd c then ⟨rest, p.line + 1, 0⟩ else ⟨rest, p.line, p.column + 1⟩

def skip : Nat → Place → Place
  | 0, p => p
  | n + 1, p =>
    match p.rest with
    | [] => p
    | c :: cs => skip n (p.behind c cs)

/-- The place at which `rest` is left. -/
def moveTo (rest : List Char) (p : Place) : Place :=
  p.skip (p.rest.length - rest.length)

end Place

end PageServer.Yaml
