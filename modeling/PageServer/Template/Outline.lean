import PageServer.Json.Value
import PageServer.Template.Printer

/-!
# Documents as data

The tree of a document as a JSON value, each node and element under the name of
its kind.
-/

namespace PageServer.Template

/-- An element with its kind. Constants are values of their own kinds, all
others texts. -/
def Element.outline (e : Element) : Json.Value :=
  let (kind, value) := match e with
    | .name s => ("variable", Json.Value.string s)
    | .integer v => ("integer", .integer v.toInt)
    | .double x => ("double", .double x)
    | .string s => ("str", .string s)
    | .function s => ("function", .string s)
    | .operator c => ("operator", .string c.toString)
  .object [("kind", .string kind), ("value", value)]

mutual

def Node.outline : Node → Json.Value
  | .text s => .object [("type", .string "text"), ("text", .string s)]
  | .echo es =>
    .object [("type", .string "echo"), ("elements", .array (es.map Element.outline))]
  | .loop h ns =>
    .object
      [("type", .string "for_loop"), ("variable", .string h.counter), ("start", h.first.outline),
       ("end", h.last.outline), ("step", (h.step.map Element.outline).getD .null),
       ("children", .array (Node.outlines ns))]

def Node.outlines : List Node → List Json.Value
  | [] => []
  | n :: ns => Node.outline n :: Node.outlines ns

end

def Document.outline (d : Document) : Json.Value :=
  .object [("children", .array (Node.outlines d.nodes))]

end PageServer.Template
