import PageServer.Decimal.Radix
import PageServer.Text.CharClass

/-!
# Patterns of field values

A log filter can ask that the value of a field match a regular expression. Here
only the form of one is checked: groups and classes are closed, repetitions have
something to repeat, and every escape is known. Commas and closing braces end a
field, so that counted repetitions cannot be written. Word boundaries have no
automaton and are refused.
-/

namespace PageServer.Logging.Pattern

/-! ### Escapes -/

inductive Escape where
  | character (c : Char)
  | characters
  | place

def controls : List (Char × Char) :=
  [('n', '\n'), ('t', '\t'), ('r', '\r'), ('a', '\x07'), ('f', '\x0c'), ('v', '\x0b')]

/-- How many hexadecimal digits an escape has. -/
def hexWidths : List (Char × Nat) :=
  [('x', 2), ('u', 4), ('U', 8)]

/-- The character whose code a number of digits spell, and what follows them. -/
def hexCode? (width : Nat) (cs : List Char) : Option (Escape × List Char) :=
  if cs.length < width then none
  else
    match Decimal.natIn? 16 0x110000 (cs.take width) with
    | some n => if n.isValidChar then some (.character (Char.ofNat n), cs.drop width) else none
    | none => none

def escape? : List Char → Option (Escape × List Char)
  | [] => none
  | c :: cs =>
    match hexWidths.lookup c, controls.lookup c with
    | some width, _ => hexCode? width cs
    | none, some control => some (.character control, cs)
    | none, none =>
      if "dDsSwW".toList.contains c then some (.characters, cs)
      else if c == 'A' || c == 'z' then some (.place, cs)
      else if c == 'p' || c == 'P' then
        match cs with
        | category :: cs =>
          if "CLMNPSZ".toList.contains category then some (.characters, cs) else none
        | [] => none
      else if c.toNat < 0x80 && !c.isAlphanum && c != '<' && c != '>' then
        some (.character c, cs)
      else none

/-! ### Classes -/

/-- What may begin a class: a negation, hyphens that stand for themselves, and a
closing bracket if there is no hyphen. -/
def classStart (cs : List Char) : List Char :=
  let cs := if cs.head? == some '^' then cs.drop 1 else cs
  match cs with
  | ']' :: rest => rest
  | cs => cs.dropWhile (· == '-')

def namedClasses : List String :=
  ["alnum", "alpha", "ascii", "blank", "cntrl", "digit", "graph", "lower", "print", "punct",
   "space", "upper", "word", "xdigit"]

def namedClass? : List Char → Option (List Char)
  | ':' :: cs =>
    let cs := if cs.head? == some '^' then cs.drop 1 else cs
    match cs.dropWhile Char.isLower with
    | ':' :: ']' :: rest =>
      if namedClasses.contains (String.ofList (cs.takeWhile Char.isLower)) then some rest else none
    | _ => none
  | _ => none

def member? : List Char → Option (Escape × List Char)
  | [] => none
  | '\\' :: cs =>
    match escape? cs with
    | some (.place, _) => none
    | r => r
  | c :: cs => some (.character c, cs)

def range? (cs : List Char) : Option (List Char) := do
  let (first, rest) ← member? cs
  match rest with
  | '-' :: d :: more =>
    if d == ']' || d == '-' then return rest
    else
      match first, ← member? (d :: more) with
      | .character a, (.character b, rest) => if a ≤ b then some rest else none
      | _, _ => none
  | _ => return rest

/-- What follows a class that is nested so deeply, where no more than so many
steps are needed to read it. -/
def endClass? : (bound depth : Nat) → List Char → Option (List Char)
  | 0, _, _ => none
  | _, _, [] => none
  | bound + 1, depth, '[' :: cs =>
    match namedClass? cs with
    | some rest => endClass? bound depth rest
    | none => endClass? bound (depth + 1) (classStart cs)
  | bound + 1, depth, ']' :: cs =>
    if depth ≤ 1 then some cs else endClass? bound (depth - 1) cs
  | bound + 1, depth, '&' :: '&' :: cs => endClass? bound depth cs
  | bound + 1, depth, '-' :: '-' :: cs => endClass? bound depth cs
  | bound + 1, depth, '~' :: '~' :: cs => endClass? bound depth cs
  | bound + 1, depth, cs => (range? cs).bind (endClass? bound depth)

/-! ### Groups -/

inductive GroupStart where
  | opened
  /-- Flags for what follows; they are no group and cannot be repeated. -/
  | flags

def groupName? (cs : List Char) : Option (List Char) :=
  let isNameChar (c : Char) : Bool := c.isAlphanum || c == '_' || c == '.' || c == '[' || c == ']'
  match cs.head?, cs.dropWhile isNameChar with
  | some c, '>' :: rest => if c.isAlpha || c == '_' then some rest else none
  | _, _ => none

/-- Whether letters are flags, none twice, with at most one minus sign in front
of some of them. -/
def areFlags (cs : List Char) : Bool :=
  cs.all "imsUuRx-".toList.contains && cs.eraseDups.length == cs.length &&
    cs.getLast? != some '-'

def groupStart? : List Char → Option (GroupStart × List Char)
  | '?' :: 'P' :: '<' :: cs => (groupName? cs).map fun rest => (.opened, rest)
  | '?' :: '<' :: cs => (groupName? cs).map fun rest => (.opened, rest)
  | '?' :: cs =>
    let flags := cs.takeWhile fun c => c != ':' && c != ')'
    if !areFlags flags then none
    else
      match cs.drop flags.length with
      | ':' :: rest => some (.opened, rest)
      | ')' :: rest => if flags.isEmpty then none else some (.flags, rest)
      | _ => none
  | cs => some (.opened, cs)

/-! ### Patterns -/

/-- Whether a pattern goes on like this within so many groups, after something
that can be repeated or not; no more than so many steps are needed. -/
def continues : (bound groups : Nat) → (repeatable : Bool) → List Char → Bool
  | 0, _, _, _ => false
  | _, groups, _, [] => groups == 0
  | bound + 1, groups, repeatable, c :: cs =>
    match c with
    | '(' =>
      match groupStart? cs with
      | some (.opened, rest) => continues bound (groups + 1) false rest
      | some (.flags, rest) => continues bound groups false rest
      | none => false
    | ')' => groups != 0 && continues bound (groups - 1) true cs
    | '|' => continues bound groups false cs
    | '*' | '+' | '?' =>
      repeatable && continues bound groups true (if cs.head? == some '?' then cs.drop 1 else cs)
    | '\x7b' => false
    | '[' =>
      match endClass? (cs.length + 1) 1 (classStart cs) with
      | some rest => continues bound groups true rest
      | none => false
    | '\\' =>
      match escape? cs with
      | some (_, rest) => continues bound groups true rest
      | none => false
    | _ => continues bound groups true cs

def isPattern (s : String) : Bool :=
  continues (s.toList.length + 1) 0 false s.toList

end PageServer.Logging.Pattern
