import PageServer.Yaml.Layout
import PageServer.Yaml.Node

/-!
# Flat YAML mappings

A text that is one document, which is one mapping of scalars to scalars, with a
pair on each line or between braces. A text without content is the empty mapping.
Whatever is no such mapping is refused.
-/

namespace PageServer.Yaml

abbrev Pairs := List (Scalar × Scalar)

/-! ### Pairs -/

/-- A key and its value. The value may be left out, with its colon or without. -/
def pairNodes? (shorthands : Shorthands) (ts : List Token) : Option (List Node) := do
  let (key, value) := (Text.cutBy? (· == .value) ts).getD (ts, [])
  return [← Node.ofTokens? shorthands key, ← Node.ofTokens? shorthands value]

def blockNodes? (shorthands : Shorthands) (ts : List Token) : Option (List Node) :=
  match Text.splitBy (· == .key) ts with
  | [] :: pairs => (pairs.mapM (pairNodes? shorthands)).map List.flatten
  | _ => none

/-- A key and its value between braces. Without the mark of a key there is no
value. -/
def entryNodes? (shorthands : Shorthands) : List Token → Option (List Node)
  | [] => none
  | .key :: ts => pairNodes? shorthands ts
  | ts => (Node.ofTokens? shorthands ts).map fun key => [key, .scalar none .empty]

/-- The nodes of pairs between braces. A comma may stand after the last one. -/
def braceNodes? (shorthands : Shorthands) (ts : List Token) : Option (List Node) :=
  let entries := Text.splitBy (· == .comma) ts
  let entries := if entries.getLast? == some [] then entries.dropLast else entries
  (entries.mapM (entryNodes? shorthands)).map List.flatten

def pairUp : List Scalar → Pairs
  | key :: value :: rest => (key, value) :: pairUp rest
  | _ => []

/-! ### Documents -/

def content? (shorthands : Shorthands) (ts : List Token) : Option (Pairs × List Token) := do
  let (p, ts) ← Properties.read? shorthands ts
  let anchors := ({} : Anchors).note p.anchor none
  let pairs (nodes : List Node) : Option Pairs := (anchors.resolve? nodes).map pairUp
  match ts with
  | .blockOpen :: ts =>
    let (body, rest) ← Text.cutBy? (· == .blockClose) ts
    return (← pairs (← blockNodes? shorthands body), rest)
  | .braceOpen :: ts =>
    let (body, rest) ← Text.cutBy? (· == .braceClose) ts
    return (← pairs (← braceNodes? shorthands body), rest)
  | ts => if p.isEmpty then none else some ([], ts)

def isOutside : Token → Bool
  | .directive _ | .documentStart | .documentEnd => true
  | _ => false

/-- The handles that directives declare, none twice, besides the standard ones.
There may be one version, of those that are known. -/
def shorthands? : List Directive → Option Shorthands
  | ds =>
    let versions := ds.filterMap fun
      | .version major minor => some (major, minor)
      | _ => none
    let declared := ds.filterMap fun
      | .shorthand handle address => some (handle, address)
      | _ => none
    let handles := declared.map Prod.fst
    if versions.length ≤ 1 && versions.all [(1, 1), (1, 2)].contains &&
        handles.eraseDups.length == handles.length then
      some (declared ++ standardShorthands)
    else none

def takeDirectives : List Token → List Directive × List Token
  | .directive d :: ts =>
    let (ds, ts) := takeDirectives ts
    (d :: ds, ts)
  | ts => ([], ts)

/-- The pairs of the one document that tokens spell, and what follows it.
Directives have to be followed by the mark that begins a document. -/
def document? (ts : List Token) : Option (Pairs × List Token) := do
  let (ds, ts) := takeDirectives ts
  let shorthands ← shorthands? ds
  match ts with
  | .documentStart :: ts =>
    match ts with
    | [] => some ([], [])
    | t :: rest => if isOutside t then some ([], t :: rest) else content? shorthands (t :: rest)
  | [] => if ds.isEmpty then some ([], []) else none
  | t :: rest => if ds.isEmpty then content? shorthands (t :: rest) else none

/-- The pairs of a flat mapping in the order in which they are written. -/
def parse? (text : String) : Option Pairs := do
  let tokens ← Layout.tokens? (normalizeEnds text.toList)
  let (pairs, rest) ← document? tokens
  if rest.all (· == .documentEnd) then some pairs else none

end PageServer.Yaml
