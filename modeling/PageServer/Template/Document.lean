import PageServer.Template.Token

/-!
# Template documents

A document is a list of literal texts, echoes and counted loops; a loop has a
document for its body. The elements of an echo are in postfix order.
-/

namespace PageServer.Template

inductive Element where
  | name (s : String)
  | integer (v : Int64)
  | double (x : Float)
  | string (s : String)
  | function (s : String)
  | operator (c : Char)
  deriving BEq

/-- What a loop counts: from the first to the last bound, by one if no step is
given. -/
structure LoopHeader where
  counter : String
  first : Element
  last : Element
  step : Option Element
  deriving BEq

inductive Node where
  | text (s : String)
  | echo (elements : List Element)
  | loop (header : LoopHeader) (body : List Node)

structure Document where
  nodes : List Node

namespace Node

mutual

/-- Equality of nodes, doubles compared as numbers. -/
def same : Node → Node → Bool
  | .text s, .text t => s == t
  | .echo es, .echo fs => es == fs
  | .loop h ns, .loop k ms => h == k && sameAll ns ms
  | _, _ => false

def sameAll : List Node → List Node → Bool
  | [], [] => true
  | n :: ns, m :: ms => same n m && sameAll ns ms
  | _, _ => false

end

instance : BEq Node := ⟨same⟩

end Node

instance : BEq Document := ⟨fun d e => Node.sameAll d.nodes e.nodes⟩

namespace Element

def ofToken? : Token → Option Element
  | .name s => some (.name s)
  | .integer v => some (.integer v)
  | .double x => some (.double x)
  | .string s => some (.string s)
  | .function s => some (.function s)
  | .operator c => some (.operator c)
  | .tagOpen | .tagClose | .text _ | .endOfInput => none

/-- Whether an element may bound a loop: a name or a constant. -/
def isBound : Element → Bool
  | .name _ | .integer _ | .double _ | .string _ => true
  | .function _ | .operator _ => false

end Element

end PageServer.Template
