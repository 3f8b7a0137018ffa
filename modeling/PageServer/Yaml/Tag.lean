import PageServer.Text.CharClass
import PageServer.Yaml.Place

/-!
# Tags and directives

A tag is a handle and a suffix, or a whole address between angles. Handles are
short for the beginnings of addresses; two of them are always known, and
directives before a document may declare others.
-/

namespace PageServer.Yaml

/-- A tag as it is written; a whole address has no handle. -/
structure Tag where
  handle : List Char
  suffix : List Char
  deriving DecidableEq, Repr

/-- What a line with a percent sign says. -/
inductive Directive where
  | version (major minor : Nat)
  | shorthand (handle address : List Char)
  deriving DecidableEq, Repr

/-! ### Addresses -/

def isAddressChar (c : Char) : Bool :=
  isNameChar c || ";/?:@&=+$.!~*'()".toList.contains c

/-- How many octets follow the first one of a character. -/
def octetsAfter? (octet : Nat) : Option Nat :=
  if octet < 0x80 then some 0
  else if 0xc0 ≤ octet && octet < 0xe0 then some 1
  else if 0xe0 ≤ octet && octet < 0xf0 then some 2
  else if 0xf0 ≤ octet && octet < 0xf8 then some 3
  else none

def octet? (a b : Char) : Option Nat :=
  match Text.hexValue? a, Text.hexValue? b with
  | some a, some b => some (16 * a + b)
  | _, _ => none

/-- An address, and what follows it, while so many octets of a character are
due. No known address has a character outside of ASCII, so that one that is
escaped is not told apart from others. -/
def address (brackets : Bool) : Nat → List Char → Option (List Char × List Char)
  | due, '%' :: a :: b :: cs => do
    let octet ← octet? a b
    if due = 0 then
      let due ← octetsAfter? octet
      let c := if due = 0 then Char.ofNat octet else '\ufffd'
      (address brackets due cs).map fun r => (c :: r.1, r.2)
    else if 0x80 ≤ octet && octet < 0xc0 then address brackets (due - 1) cs
    else none
  | due, c :: cs =>
    if due ≠ 0 || c == '%' then none
    else if isAddressChar c || (brackets && (c == ',' || c == '[' || c == ']')) then
      (address brackets 0 cs).map fun r => (c :: r.1, r.2)
    else some ([], c :: cs)
  | due, [] => if due ≠ 0 then none else some ([], [])

def address? (brackets : Bool) (cs : List Char) : Option (List Char × List Char) :=
  match address brackets 0 cs with
  | some ([], _) => none
  | r => r

/-! ### Tags -/

/-- A handle at the beginning of a text, or what begins like one. -/
def readHandle (cs : List Char) : List Char × List Char :=
  match cs with
  | '!' :: cs =>
    let name := cs.takeWhile isNameChar
    match cs.dropWhile isNameChar with
    | '!' :: rest => ('!' :: name ++ ['!'], rest)
    | rest => ('!' :: name, rest)
  | _ => ([], cs)

def isClosedHandle (h : List Char) : Bool :=
  1 < h.length && h.getLast? == some '!'

def Tag.read? (cs : List Char) : Option (Tag × List Char) :=
  match cs with
  | '!' :: '<' :: cs =>
    match address? true cs with
    | some (suffix, '>' :: rest) => some (⟨[], suffix⟩, rest)
    | _ => none
  | cs =>
    let (h, rest) := readHandle cs
    if isClosedHandle h then (address? false rest).map fun r => (⟨h, r.1⟩, r.2)
    else
      match address false 0 rest with
      | none => none
      | some (more, rest) =>
        match h.drop 1 ++ more with
        | [] => some (⟨[], ['!']⟩, rest)
        | suffix => some (⟨['!'], suffix⟩, rest)

abbrev Shorthands := List (List Char × List Char)

def standardShorthands : Shorthands :=
  [("!".toList, "!".toList), ("!!".toList, "tag:yaml.org,2002:".toList)]

/-- The whole address of a tag; its handle must be known. -/
def Tag.resolve? (shorthands : Shorthands) (t : Tag) : Option String :=
  if t.handle.isEmpty then some (String.ofList t.suffix)
  else (shorthands.lookup t.handle).map fun address => String.ofList (address ++ t.suffix)

/-! ### Directives -/

/-- A number of at most nine digits, and what follows it. -/
def versionPart? (cs : List Char) : Option (Nat × List Char) :=
  let digits := cs.takeWhile Char.isDigit
  if digits.isEmpty || 9 < digits.length then none
  else some (digits.foldl (fun n d => 10 * n + (d.toNat - '0'.toNat)) 0, cs.dropWhile Char.isDigit)

def Directive.version? (cs : List Char) : Option (Directive × List Char) :=
  match versionPart? (cs.dropWhile isSpace) with
  | some (major, '.' :: cs) => (versionPart? cs).map fun r => (.version major r.1, r.2)
  | _ => none

def Directive.shorthand? (cs : List Char) : Option (Directive × List Char) := do
  let (h, cs) := readHandle (cs.dropWhile isSpace)
  if h ≠ ['!'] && !isClosedHandle h then none
  if !cs.head?.any isSpace then none
  let (a, cs) ← address? true (cs.dropWhile isSpace)
  if isApart cs then some (.shorthand h a, cs) else none

def Directive.read? (cs : List Char) : Option (Directive × List Char) := do
  let name := String.ofList (cs.takeWhile isNameChar)
  let cs := cs.dropWhile isNameChar
  if !isApart cs then none
  let (directive, cs) ←
    if name = "YAML" then version? cs
    else if name = "TAG" then shorthand? cs
    else none
  return (directive, ← endLine? cs)

end PageServer.Yaml
