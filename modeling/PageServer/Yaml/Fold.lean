import PageServer.Yaml.Place

/-!
# Folded lines

Blanks around a line end do not count. A single line end stands for a space, and
of several all but the first are kept. The separators of Unicode are kept always,
and a line end that is escaped stands for nothing.
-/

namespace PageServer.Yaml

inductive Piece where
  /-- A character that stands for itself. -/
  | ink (c : Char)
  | space (c : Char)
  | lineEnd (c : Char)
  /-- A line end that was escaped. -/
  | joint
  deriving DecidableEq, Repr

namespace Piece

def ofChar (c : Char) : Piece :=
  if isLineEnd c then lineEnd c else if isSpace c then space c else ink c

def isInk : Piece → Bool
  | ink _ => true
  | _ => false

end Piece

inductive Gap where
  | spaces (cs : List Char)
  /-- The first line end, if it was not escaped, and the further ones. -/
  | lineEnds (first : Option Char) (more : List Char)

namespace Gap

def none : Gap := spaces []

def addSpace (c : Char) : Gap → Gap
  | spaces cs => spaces (cs ++ [c])
  | lineEnds first more => lineEnds first more

def addLineEnd (c : Char) : Gap → Gap
  | spaces _ => lineEnds (some c) []
  | lineEnds first more => lineEnds first (more ++ [c])

def text : Gap → List Char
  | spaces cs => cs
  | lineEnds (some '\n') [] => [' ']
  | lineEnds (some '\n') more => more
  | lineEnds first more => first.toList ++ more

end Gap

def foldFrom (gap : Gap) : List Piece → List Char
  | [] => gap.text
  | .ink c :: ps => gap.text ++ c :: foldFrom .none ps
  | .space c :: ps => foldFrom (gap.addSpace c) ps
  | .lineEnd c :: ps => foldFrom (gap.addLineEnd c) ps
  | .joint :: ps => gap.text ++ foldFrom (.lineEnds Option.none []) ps

def fold (ps : List Piece) : List Char :=
  foldFrom .none ps

end PageServer.Yaml
