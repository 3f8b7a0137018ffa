import PageServer.Yaml.Block
import PageServer.Yaml.Plain
import PageServer.Yaml.Quoted
import PageServer.Yaml.Token

/-!
# Layout of a flat YAML text

Indentation and line ends say where mappings and their keys begin. A key is
known as such only by the colon behind it: until then the tokens since it may
have begun are held back. Sequences and mappings within mappings are refused.
-/

namespace PageServer.Yaml

structure Candidate where
  line : Nat
  column : Nat
  /-- What begins in the column of the mapping has to be a key. -/
  required : Bool
  deriving Repr

/-- How many columns a key may take up to its colon. -/
def maxKeyWidth : Nat := 1024

/-- A text that is read up to some place. -/
structure Layout where
  place : Place
  /-- The column of the mapping on lines that is open. -/
  block : Option Nat := none
  inBraces : Bool := false
  /-- Whether a key may begin here. -/
  keyAllowed : Bool := true
  candidate : Option Candidate := none
  settled : Array Token := #[]
  /-- The tokens since the candidate. -/
  pending : Array Token := #[]

namespace Layout

/-! ### Tokens and keys -/

def emit (t : Token) (s : Layout) : Layout :=
  { s with pending := s.pending.push t }

/-- No key begins before the tokens that were held back. -/
def settle (s : Layout) : Layout :=
  { s with candidate := none, settled := s.settled ++ s.pending, pending := #[] }

/-- Gives up the candidate, unless a key is required there. -/
def withdraw? (s : Layout) : Option Layout :=
  if s.candidate.any (·.required) then none else some s.settle

def offerKey? (s : Layout) : Option Layout :=
  if !s.keyAllowed then some s
  else
    let c := ⟨s.place.line, s.place.column, !s.inBraces && s.block == some s.place.column⟩
    s.withdraw?.map fun s => { s with candidate := some c }

/-- Gives up a candidate that is too far away: a key and its colon stand on one
line. -/
def refresh? (s : Layout) : Option Layout :=
  let isStale (c : Candidate) :=
    c.line < s.place.line || c.column + maxKeyWidth < s.place.column
  if s.candidate.any isStale then s.withdraw? else some s

/-! ### Mappings on lines -/

def openBlock? (column : Nat) (s : Layout) : Option Layout :=
  if s.inBraces then some s
  else
    match s.block with
    | none => some { s with block := some column, settled := s.settled.push .blockOpen }
    | some b => if b = column then some s else none

def closeBlock (s : Layout) : Layout :=
  if s.inBraces || s.block.isNone then s else emit .blockClose { s with block := none }

/-- Closes the mapping on lines if the text went on to the left of it. -/
def closeDeeper (s : Layout) : Layout :=
  if s.block.any (s.place.column < ·) then s.closeBlock else s

/-! ### Steps -/

def moveTo (rest : List Char) (s : Layout) : Layout :=
  { s with place := s.place.moveTo rest }

def advance (n : Nat) (s : Layout) : Layout :=
  { s with place := s.place.skip n }

/-- What follows blanks, line ends and comments, and whether a key may begin
there. A tab may not stand where a key could begin, but between braces. -/
def skipGap (inBraces : Bool) : (keyAllowed inComment : Bool) → List Char → Bool × List Char
  | keyAllowed, _, [] => (keyAllowed, [])
  | keyAllowed, inComment, c :: cs =>
    if isLineEnd c then skipGap inBraces (keyAllowed || !inBraces) false cs
    else if inComment || c == ' ' || (c == '\t' && (inBraces || !keyAllowed)) then
      skipGap inBraces keyAllowed inComment cs
    else if c == '#' then skipGap inBraces keyAllowed true cs
    else (keyAllowed, c :: cs)

def reach? (s : Layout) : Option Layout :=
  let (keyAllowed, rest) := skipGap s.inBraces s.keyAllowed false s.place.rest
  ({ s with keyAllowed }.moveTo rest).refresh?.map closeDeeper

/-- A token of the document itself, at which everything is closed. -/
def boundary? (t : Token) (s : Layout) : Option Layout :=
  s.closeBlock.withdraw?.map fun s => emit t { s with keyAllowed := false }

def openBrace? (s : Layout) : Option Layout :=
  if s.inBraces || s.block.isSome then none
  else some ((emit .braceOpen { s.settle with inBraces := true, keyAllowed := true }).advance 1)

def closeBrace? (s : Layout) : Option Layout :=
  if !s.inBraces then none
  else some ((emit .braceClose { s.settle with inBraces := false, keyAllowed := false }).advance 1)

def comma? (s : Layout) : Option Layout :=
  if !s.inBraces then none
  else some ((emit .comma { s.settle with keyAllowed := true }).advance 1)

/-- A key that a question mark announces. -/
def key? (s : Layout) : Option Layout := do
  if !s.inBraces && !s.keyAllowed then none
  let s ← (← s.withdraw?).openBlock? s.place.column
  return (emit .key { s with keyAllowed := !s.inBraces }).advance 1

/-- A colon makes the candidate a key. -/
def value? (s : Layout) : Option Layout :=
  match s.candidate with
  | some c =>
    (s.openBlock? c.column).map fun s =>
      let s := settle { s with settled := s.settled.push .key, keyAllowed := false }
      (s.emit .value).advance 1
  | none => do
    if !s.inBraces && !s.keyAllowed then none
    let s ← s.settle.openBlock? s.place.column
    return (emit .value { s with keyAllowed := !s.inBraces }).advance 1

/-- A token that a key may begin with. -/
def content? (t : Token) (rest : List Char) (s : Layout) : Option Layout :=
  s.offerKey?.map fun s => (emit t { s with keyAllowed := false }).moveTo rest

def anchorName? (cs : List Char) : Option (String × List Char) :=
  let name := cs.takeWhile isNameChar
  let rest := cs.dropWhile isNameChar
  if !name.isEmpty && (isApart rest || rest.head?.any "?:,]\x7d%@`".toList.contains) then
    some (String.ofList name, rest)
  else none

def anchor? (token : String → Token) (cs : List Char) (s : Layout) : Option Layout := do
  let (name, rest) ← anchorName? cs
  s.content? (token name) rest

def tag? (s : Layout) : Option Layout := do
  let (t, rest) ← Tag.read? s.place.rest
  if isApart rest || (s.inBraces && rest.head? == some ',') then s.content? (.tag t) rest
  else none

def quoted? (style : Style) (r : Option (List Piece × List Char)) (s : Layout) : Option Layout := do
  let (pieces, rest) ← r
  s.content? (.scalar style (String.ofList (fold pieces))) rest

/-- A block scalar is no key; after it one may begin. -/
def blockScalar? (style : Style) (cs : List Char) (s : Layout) : Option Layout := do
  let (text, rest) ← Yaml.blockScalar? (style == .folded) s.block cs
  let s ← s.withdraw?
  return (emit (.scalar style (String.ofList text)) { s with keyAllowed := true }).moveTo rest

/-- After a plain scalar with line ends behind it, a key may begin. -/
def plain? (s : Layout) : Option Layout := do
  let r ← plainRun s.inBraces (s.block.elim 0 (· + 1)) .ink s.place.column s.place.rest
  let s ← s.content? (.scalar .plain (String.ofList r.text)) r.rest
  return { s with keyAllowed := r.broken }

def step? (c : Char) (cs : List Char) (s : Layout) : Option Layout :=
  let apart := isApart cs
  if s.place.column = 0 && c == '%' then do
    let (d, rest) ← Directive.read? cs
    return (← s.boundary? (.directive d)).moveTo rest
  else if s.place.column = 0 && isMarked startMark (c :: cs) then
    (s.boundary? .documentStart).map (advance startMark.length)
  else if s.place.column = 0 && isMarked endMark (c :: cs) then
    (s.boundary? .documentEnd).map (advance endMark.length)
  else
    match c with
    | '\x7b' => s.openBrace?
    | '\x7d' => s.closeBrace?
    | ',' => s.comma?
    | '*' => s.anchor? .alias cs
    | '&' => s.anchor? .anchor cs
    | '!' => s.tag?
    | '\'' => s.quoted? .singleQuoted (singleQuoted cs)
    | '"' => s.quoted? .doubleQuoted (doubleQuoted cs)
    | _ =>
      if c == '?' && (s.inBraces || apart) then s.key?
      else if c == ':' && (s.inBraces || apart) then s.value?
      else if c == '|' && !s.inBraces then s.blockScalar? .literal cs
      else if c == '>' && !s.inBraces then s.blockScalar? .folded cs
      else if startsPlain s.inBraces (c :: cs) then s.plain?
      else none

def run? : Nat → Layout → Option (List Token)
  | 0, _ => none
  | bound + 1, s => do
    let s ← s.reach?
    match s.place.rest with
    | [] => return (← s.closeBlock.withdraw?).settled.toList
    | c :: cs => run? bound (← s.step? c cs)

/-- The tokens of a text. A byte order mark at its beginning takes up a column
and says nothing. -/
def tokens? (cs : List Char) : Option (List Token) :=
  let place := match cs with
    | '\ufeff' :: cs => ⟨cs, 0, 1⟩
    | cs => ⟨cs, 0, 0⟩
  if cs.all isPrintable then run? (cs.length + 1) { place } else none

end Layout

end PageServer.Yaml
