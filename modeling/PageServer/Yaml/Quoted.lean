import PageServer.Text.CharClass
import PageServer.Yaml.Fold

/-!
# Quoted scalars

Between single quotes every character stands for itself, and a quote is written
twice. Between double quotes a backslash begins an escape. No line within quotes
may begin with a mark of documents.
-/

namespace PageServer.Yaml

/-- Puts one more piece before what was read, unless a mark of documents
follows it on a line of its own. -/
def beforePieces (p : Piece) (c : Char) (rest : List Char)
    (r : Option (List Piece × List Char)) : Option (List Piece × List Char) :=
  if isLineEnd c && isBoundary rest then none else r.map fun r => (p :: r.1, r.2)

/-- The pieces up to the closing single quote, and what follows it. -/
def singleQuoted : List Char → Option (List Piece × List Char)
  | [] => none
  | '\'' :: '\'' :: rest => (singleQuoted rest).map fun r => (.ink '\'' :: r.1, r.2)
  | '\'' :: rest => some ([], rest)
  | c :: rest => beforePieces (.ofChar c) c rest (singleQuoted rest)

def shortEscapes : List (Char × Char) :=
  [('0', '\x00'), ('a', '\x07'), ('b', '\x08'), ('t', '\t'), ('\t', '\t'), ('n', '\n'),
   ('v', '\x0b'), ('f', '\x0c'), ('r', '\r'), ('e', '\x1b'), (' ', ' '), ('"', '"'), ('/', '/'),
   ('\\', '\\'), ('N', '\u0085'), ('_', '\u00a0'), ('L', '\u2028'), ('P', '\u2029')]

/-- How many hexadecimal digits an escape has. -/
def escapeWidths : List (Char × Nat) :=
  [('x', 2), ('u', 4), ('U', 8)]

def ofHex? (ds : List Char) : Option Char :=
  match ds.mapM Text.hexValue? with
  | none => none
  | some vs =>
    let n := vs.foldl (fun n v => 16 * n + v) 0
    if n.isValidChar then some (Char.ofNat n) else none

/-- The pieces up to the closing double quote, and what follows it. -/
def doubleQuoted : List Char → Option (List Piece × List Char)
  | [] => none
  | '"' :: rest => some ([], rest)
  | '\\' :: e :: rest =>
    if isLineEnd e then beforePieces .joint e rest (doubleQuoted rest)
    else
      match shortEscapes.lookup e, escapeWidths.lookup e with
      | some c, _ => (doubleQuoted rest).map fun r => (.ink c :: r.1, r.2)
      | none, some width =>
        if rest.length < width then none
        else
          match ofHex? (rest.take width) with
          | none => none
          | some c => (doubleQuoted (rest.drop width)).map fun r => (.ink c :: r.1, r.2)
      | none, none => none
  | c :: rest => beforePieces (.ofChar c) c rest (doubleQuoted rest)
termination_by cs => cs.length
decreasing_by
  all_goals
    simp only [List.length_cons, List.length_drop]
    omega

end PageServer.Yaml
