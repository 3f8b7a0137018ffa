import PageServer.Yaml.Token

/-!
# Scalars with tags, anchors and aliases

A scalar may have a tag and an anchor before it, in any order. An alias stands
for the scalar of its anchor. Anchors are numbered by how many names there were
before, so that the scalar of a number is the last one that got it.
-/

namespace PageServer.Yaml

structure Scalar where
  text : String
  style : Style
  tag : Option String
  deriving DecidableEq, Repr

def Scalar.empty : Scalar := ⟨"", .plain, none⟩

/-! ### Properties -/

structure Properties where
  anchor : Option String
  tag : Option String
  deriving Repr

namespace Properties

def isEmpty (p : Properties) : Bool :=
  p.anchor.isNone && p.tag.isNone

/-- The properties at the beginning of tokens, and what follows them. A tag
whose handle is not known is refused. -/
def read? (shorthands : Shorthands) : List Token → Option (Properties × List Token)
  | .anchor a :: .tag t :: ts => (t.resolve? shorthands).map fun tag => (⟨some a, some tag⟩, ts)
  | .tag t :: .anchor a :: ts => (t.resolve? shorthands).map fun tag => (⟨some a, some tag⟩, ts)
  | .anchor a :: ts => some (⟨some a, none⟩, ts)
  | .tag t :: ts => (t.resolve? shorthands).map fun tag => (⟨none, some tag⟩, ts)
  | ts => some (⟨none, none⟩, ts)

/-- The tag of a scalar. A lone exclamation mark says nothing about one that is
written out. -/
def scalarTag (p : Properties) : Option String :=
  p.tag.filter (· != "!")

end Properties

/-! ### Nodes -/

inductive Node where
  | scalar (anchor : Option String) (s : Scalar)
  | alias (anchor : String)
  deriving Repr

def Node.ofTokens? (shorthands : Shorthands) : List Token → Option Node
  | [] => some (.scalar none .empty)
  | [.alias name] => some (.alias name)
  | ts => do
    match ← Properties.read? shorthands ts with
    | (p, [.scalar style text]) => some (.scalar p.anchor ⟨text, style, p.scalarTag⟩)
    | (p, []) => some (.scalar p.anchor ⟨"", .plain, p.tag⟩)
    | _ => none

/-! ### Anchors -/

/-- The anchors that were met, each name with its number, and what the numbers
stand for; the last ones come first. -/
structure Anchors where
  numbers : List (String × Nat) := []
  targets : List (Nat × Option Scalar) := []

namespace Anchors

/-- Notes that an anchor stands before a scalar, or before a mapping. -/
def define (name : String) (target : Option Scalar) (a : Anchors) : Anchors :=
  let number := (a.numbers.map Prod.fst).eraseDups.length
  ⟨(name, number) :: a.numbers, (number, target) :: a.targets⟩

def note (anchor : Option String) (target : Option Scalar) (a : Anchors) : Anchors :=
  match anchor with
  | none => a
  | some name => a.define name target

/-- Numbers the aliases among nodes in order; the anchor of each is known by
then. -/
def number? (a : Anchors) : List Node → Option (List (Sum Scalar Nat) × Anchors)
  | [] => some ([], a)
  | .scalar anchor s :: nodes =>
    ((a.note anchor (some s)).number? nodes).map fun r => (.inl s :: r.1, r.2)
  | .alias name :: nodes => do
    let n ← a.numbers.lookup name
    let (rest, a) ← a.number? nodes
    return (.inr n :: rest, a)

/-- The scalar itself, or the one that a number stands for in the end. -/
def scalar? (a : Anchors) : Sum Scalar Nat → Option Scalar
  | .inl s => some s
  | .inr n => (a.targets.lookup n).join

def resolve? (a : Anchors) (nodes : List Node) : Option (List Scalar) := do
  let (refs, a) ← a.number? nodes
  refs.mapM a.scalar?

end Anchors

end PageServer.Yaml
