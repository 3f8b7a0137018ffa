import PageServer.Decimal.Notation
import PageServer.Text.CharClass

/-!
# JSON values

Values of JSON and their indented text. The fields of an object are written in
the order in which they are given.
-/

namespace PageServer.Json

inductive Value where
  | null
  | integer (v : Int)
  | string (s : String)
  /-- A double; one that is not finite is written as `null`. -/
  | double (x : Float)
  | array (items : List Value)
  | object (fields : List (String × Value))

namespace Value

def hexDigit (n : Nat) : Char :=
  "0123456789abcdef".toList.getD n '0'

def shortEscape? (c : Char) : Option Char :=
  match c with
  | '\n' => some 'n'
  | '\r' => some 'r'
  | '\t' => some 't'
  | '\x08' => some 'b'
  | '\x0c' => some 'f'
  | _ => none

def escapeChar (c : Char) : List Char :=
  if c = '"' || c = '\\' then ['\\', c]
  else if 0x20 ≤ c.toNat then [c]
  else
    match shortEscape? c with
    | some e => ['\\', e]
    | none => ['\\', 'u', '0', '0', hexDigit (c.toNat / 16), hexDigit (c.toNat % 16)]

def quoted (s : String) : List Char :=
  '"' :: (s.toList.flatMap escapeChar ++ ['"'])

/-- The beginning of a line, two spaces for each level. -/
def newLine (level : Nat) : List Char :=
  '\n' :: List.replicate (2 * level) ' '

mutual

/-- The text of a value whose last line is indented to a level. -/
def indented (level : Nat) : Value → List Char
  | null => "null".toList
  | integer v => Decimal.signed v
  | string s => quoted s
  | double x => (Decimal.exchange? x).getD "null".toList
  | array [] => ['[', ']']
  | array (v :: vs) =>
    '[' :: (newLine (level + 1) ++ indented (level + 1) v ++ items (level + 1) vs ++
      newLine level ++ [']'])
  | object [] => ['\x7b', '\x7d']
  | object (f :: fs) =>
    '\x7b' :: (newLine (level + 1) ++ field (level + 1) f ++ fields (level + 1) fs ++
      newLine level ++ ['\x7d'])

def items (level : Nat) : List Value → List Char
  | [] => []
  | v :: vs => ',' :: (newLine level ++ indented level v ++ items level vs)

def field (level : Nat) : String × Value → List Char
  | (key, v) => quoted key ++ ':' :: ' ' :: indented level v

def fields (level : Nat) : List (String × Value) → List Char
  | [] => []
  | f :: fs => ',' :: (newLine level ++ field level f ++ fields level fs)

end

def text (v : Value) : String :=
  String.ofList (indented 0 v)

end Value

end PageServer.Json
