import PageServer.Text.Trim
import PageServer.Yaml.Fold

/-!
# Plain scalars

A plain scalar ends before a comment, before a colon that is set apart and before
a line that is not indented deeply enough; between brackets also before their
marks. Its further lines are folded.
-/

namespace PageServer.Yaml

def startsPlain (inBraces : Bool) : List Char → Bool
  | [] => false
  | c :: rest =>
    if isApart (c :: rest) || isMark c then false
    else if c == '-' then !isApart rest
    else if c == '?' || c == ':' then !inBraces && !isApart rest
    else true

inductive Before where
  | ink
  | spaces
  | lineEnd
  deriving DecidableEq, Repr

/-- The pieces of a plain scalar, the blanks and line ends after it among them. -/
structure PlainRun where
  pieces : List Piece
  /-- Whether line ends follow the last character. -/
  broken : Bool
  rest : List Char

def PlainRun.cons (p : Piece) (r : PlainRun) : PlainRun :=
  { r with pieces := p :: r.pieces }

/-- Whether a scalar ends before a character because of what stands before it.
Outside of brackets, further lines are indented at least to the column `least`. -/
def endsLine (inBraces : Bool) (least : Nat) (before : Before) (column : Nat)
    (here : List Char) : Bool :=
  before != .ink &&
    ((!inBraces && column < least) || (column == 0 && isBoundary here) ||
      here.head? == some '#')

/-- Reads a plain scalar. A tab may not stand for indentation, and between
brackets no mark may follow a colon. -/
def plainRun (inBraces : Bool) (least : Nat) :
    Before → Nat → List Char → Option PlainRun
  | before, _, [] => some ⟨[], before == .lineEnd, []⟩
  | before, column, c :: rest =>
    if isLineEnd c then (plainRun inBraces least .lineEnd 0 rest).map (.cons (.lineEnd c))
    else if isSpace c then
      if before == .lineEnd && column < least && c == '\t' then none
      else
        let before := if before == .lineEnd then .lineEnd else .spaces
        (plainRun inBraces least before (column + 1) rest).map (.cons (.space c))
    else if endsLine inBraces least before column (c :: rest) then
      some ⟨[], before == .lineEnd, c :: rest⟩
    else if inBraces && c == ':' && rest.head?.any fun d => isFlowMark d || d == '?' then none
    else if (c == ':' && isApart rest) || (inBraces && isFlowMark c) then
      some ⟨[], before == .lineEnd, c :: rest⟩
    else (plainRun inBraces least .ink (column + 1) rest).map (.cons (.ink c))

/-- The text of a plain scalar, without the blanks and line ends after it. -/
def PlainRun.text (r : PlainRun) : List Char :=
  fold (Text.dropEndWhile (fun p => !p.isInk) r.pieces)

end PageServer.Yaml
