import PageServer.Decimal.Notation
import PageServer.Template.Document

/-!
# Writing a document

The canonical source of a document: one space between the pieces of a
directive, keywords in capitals, the escapes that the scanner undoes and no
others.
-/

namespace PageServer.Template

/-- Literal text with a backslash before each backslash and opening brace. -/
def escapeText (cs : List Char) : List Char :=
  cs.flatMap fun c => if c = '\\' || c = '{' then ['\\', c] else [c]

def escapeString (cs : List Char) : List Char :=
  cs.flatMap fun c =>
    if c = '\\' then ['\\', '\\']
    else if c = '"' then ['\\', '"']
    else if c = '\n' then ['\\', 'n']
    else if c = '\r' then ['\\', 'r']
    else if c = '\t' then ['\\', 't']
    else [c]

def Element.chars : Element → List Char
  | .name s => s.toList
  | .integer v => Decimal.signed v.toInt
  | .double x => Decimal.pointed x
  | .string s => '"' :: (escapeString s.toList ++ ['"'])
  | .function s => '@' :: s.toList
  | .operator c => [c]

/-- Pieces of a directive, each after a space, between the two marks. -/
def directiveChars (pieces : List (List Char)) : List Char :=
  '{' :: '$' :: (pieces.flatMap (' ' :: ·) ++ [' ', '$', '}'])

def LoopHeader.pieces (h : LoopHeader) : List (List Char) :=
  [forKeyword.toList, h.counter.toList, h.first.chars, h.last.chars] ++
    (h.step.map Element.chars).toList

mutual

def Node.chars : Node → List Char
  | .text s => escapeText s.toList
  | .echo es => directiveChars (['='] :: es.map Element.chars)
  | .loop h ns =>
    directiveChars h.pieces ++ (Node.allChars ns ++ directiveChars [endKeyword.toList])

def Node.allChars : List Node → List Char
  | [] => []
  | n :: ns => Node.chars n ++ Node.allChars ns

end

def Document.source (d : Document) : String :=
  String.ofList (Node.allChars d.nodes)

end PageServer.Template
