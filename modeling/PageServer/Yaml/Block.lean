import PageServer.Yaml.Place

/-!
# Block scalars

A block scalar is the indented lines after a bar or an angle. Its head may state
how deep they are indented and what becomes of the line ends after the last one.
After a bar lines are kept as they are; after an angle they are folded, but for
those that begin with a blank.
-/

namespace PageServer.Yaml

/-- What becomes of the line ends after the last line. -/
inductive Chomping where
  | strip
  | clip
  | keep
  deriving DecidableEq, Repr

/-! ### Heads -/

def chomping? : List Char → Option (Chomping × List Char)
  | '-' :: cs => some (.strip, cs)
  | '+' :: cs => some (.keep, cs)
  | _ => none

/-- A stated depth, which is a digit and not zero. -/
def statedDepth? : List Char → Option (Option Nat × List Char)
  | c :: cs =>
    if c == '0' then none
    else if c.isDigit then some (some (c.toNat - '0'.toNat), cs)
    else some (none, c :: cs)
  | [] => some (none, [])

/-- The chomping and the depth that a head states, in any order, and what
follows them. -/
def blockHead? (cs : List Char) : Option (Chomping × Option Nat × List Char) :=
  match chomping? cs with
  | some (chomping, rest) => (statedDepth? rest).map fun r => (chomping, r.1, r.2)
  | none =>
    match statedDepth? cs with
    | none => none
    | some (none, rest) => some (.clip, none, rest)
    | some (depth, rest) =>
      match chomping? rest with
      | some (chomping, rest) => some (chomping, depth, rest)
      | none => some (.clip, depth, rest)

/-! ### Lines -/

/-- A line and its end; the last line of a text has none. -/
structure Line where
  text : List Char
  lineEnd : Option Char

namespace Line

def toList (l : Line) : List Char :=
  l.text ++ l.lineEnd.toList

def indentation (l : Line) : Nat :=
  (l.text.takeWhile (· == ' ')).length

/-- What a line is to a block scalar of some indentation. -/
inductive Kind where
  | blank (lineEnd : Char)
  | content (text : List Char)
  | outside
  | misindented

def kind (indent : Nat) (l : Line) : Kind :=
  let depth := min indent l.indentation
  match l.text.drop depth, l.lineEnd with
  | [], some e => .blank e
  | [], none => .outside
  | c :: cs, _ =>
    if depth = indent then .content (c :: cs)
    else if c == '\t' then .misindented
    else .outside

end Line

def linesOf : List Char → List Line
  | [] => [⟨[], none⟩]
  | c :: cs =>
    if isLineEnd c then ⟨[], some c⟩ :: linesOf cs
    else
      match linesOf cs with
      | [] => [⟨[c], none⟩]
      | l :: ls => { l with text := c :: l.text } :: ls

/-- The indentation of a block scalar that does not state it: that of its first
line which is not blank, or of a blank one before it if that is deeper. -/
def detectIndent (deepest : Nat) : List Line → Option Nat
  | [] => some deepest
  | l :: ls =>
    let deepest := max deepest l.indentation
    match l.text.drop l.indentation, l.lineEnd with
    | '\t' :: _, _ => none
    | [], some _ => detectIndent deepest ls
    | _, _ => some deepest

/-! ### Rows -/

/-- A line with content, and the ends of the blank lines after it. -/
structure Row where
  text : List Char
  lineEnd : Option Char
  blanks : List Char

def Row.startsBlank (r : Row) : Bool :=
  r.text.head?.any isSpace

structure Rows where
  /-- The ends of the blank lines before the first row. -/
  blanks : List Char
  rows : List Row
  rest : List Line

def readRows (indent : Nat) : List Line → Option Rows
  | [] => some ⟨[], [], []⟩
  | l :: ls =>
    match l.kind indent with
    | .outside => some ⟨[], [], l :: ls⟩
    | .misindented => none
    | .blank e => (readRows indent ls).map fun r => { r with blanks := e :: r.blanks }
    | .content text =>
      (readRows indent ls).map fun r => ⟨[], ⟨text, l.lineEnd, r.blanks⟩ :: r.rows, r.rest⟩

/-- What stands for the line ends between two rows. -/
def betweenRows (folded : Bool) (r s : Row) : List Char :=
  if folded && r.lineEnd == some '\n' && !r.startsBlank && !s.startsBlank then
    if r.blanks.isEmpty then [' '] else r.blanks
  else r.lineEnd.toList ++ r.blanks

def rowsText (folded : Bool) (chomping : Chomping) : List Row → List Char
  | [] => []
  | [r] =>
    r.text ++ match chomping with
      | .strip => []
      | .clip => r.lineEnd.toList
      | .keep => r.lineEnd.toList ++ r.blanks
  | r :: s :: rest => r.text ++ betweenRows folded r s ++ rowsText folded chomping (s :: rest)

def Rows.text (folded : Bool) (chomping : Chomping) (r : Rows) : List Char :=
  if r.rows.isEmpty && chomping != .keep then []
  else r.blanks ++ rowsText folded chomping r.rows

/-- The text of a block scalar after its mark, and what follows it. The parent's
column, if there is one, is what its depth is counted from. -/
def blockScalar? (folded : Bool) (parent : Option Nat) (cs : List Char) :
    Option (List Char × List Char) := do
  let (chomping, depth, cs) ← blockHead? cs
  let lines := linesOf (← endLine? cs)
  let indent ← match depth with
    | some depth => some (parent.getD 0 + depth)
    | none => detectIndent (parent.elim 1 (· + 1)) lines
  let rows ← readRows indent lines
  return (rows.text folded chomping, rows.rest.flatMap Line.toList)

end PageServer.Yaml
