import Mathlib.Data.List.Chain
import PageServer.Template.Document

/-!
# Well-formed documents

A document can be built that no template describes: with an empty text, with a
name that is none, with a loop that counts to a function. The well-formed ones
are those whose canonical source is read as themselves.
-/

namespace PageServer.Template

/-- A name as it is read. What spells the closing keyword is read in capitals. -/
def IsVariable (s : String) : Prop :=
  isName s.toList = true ∧ (spells endKeyword s.toList = true → s = endKeyword)

instance (s : String) : Decidable (IsVariable s) :=
  inferInstanceAs (Decidable (_ ∧ _))

namespace Element

/-- The element stands for itself inside an echo. -/
def WellFormed : Element → Prop
  | name s => IsVariable s
  | function s => isName s.toList = true
  | operator c => c ∈ operators ∧ c ≠ '='
  | integer _ | double _ | string _ => True

instance : DecidablePred WellFormed
  | name s => inferInstanceAs (Decidable (IsVariable s))
  | function s => inferInstanceAs (Decidable (isName s.toList = true))
  | operator c => inferInstanceAs (Decidable (c ∈ operators ∧ c ≠ '='))
  | integer _ | double _ | string _ => .isTrue trivial

theorem WellFormed.ne_assign {e : Element} (h : e.WellFormed) : e ≠ .operator '=' := by
  rintro rfl
  exact h.2 rfl

def doubles : Element → List Float
  | double x => [x]
  | name _ | function _ | operator _ | integer _ | string _ => []

end Element

namespace LoopHeader

def bounds (h : LoopHeader) : List Element :=
  h.first :: h.last :: h.step.toList

structure WellFormed (h : LoopHeader) : Prop where
  counter : IsVariable h.counter
  bounds : ∀ e ∈ h.bounds, e.isBound = true ∧ e.WellFormed

instance (h : LoopHeader) : Decidable h.WellFormed :=
  decidable_of_iff (IsVariable h.counter ∧ ∀ e ∈ h.bounds, e.isBound = true ∧ e.WellFormed)
    ⟨fun ⟨hc, hb⟩ => ⟨hc, hb⟩, fun h => ⟨h.counter, h.bounds⟩⟩

end LoopHeader

namespace Node

def isText : Node → Bool
  | text _ => true
  | echo _ | loop _ _ => false

/-- No two texts stand next to each other; they would be read as one. -/
def Separated (ns : List Node) : Prop :=
  ns.IsChain fun n m => ¬ (n.isText = true ∧ m.isText = true)

instance (ns : List Node) : Decidable (Separated ns) :=
  inferInstanceAs (Decidable (ns.IsChain _))

mutual

def WellFormed : Node → Prop
  | text s => s ≠ ""
  | echo es => ∀ e ∈ es, e.WellFormed
  | loop h ns => h.WellFormed ∧ Separated ns ∧ AllWellFormed ns

def AllWellFormed : List Node → Prop
  | [] => True
  | n :: ns => n.WellFormed ∧ AllWellFormed ns

end

mutual

def decideWellFormed : (n : Node) → Decidable n.WellFormed
  | text s => inferInstanceAs (Decidable (s ≠ ""))
  | echo es => inferInstanceAs (Decidable (∀ e ∈ es, e.WellFormed))
  | loop h ns =>
    have := decideAllWellFormed ns
    inferInstanceAs (Decidable (h.WellFormed ∧ Separated ns ∧ AllWellFormed ns))

def decideAllWellFormed : (ns : List Node) → Decidable (AllWellFormed ns)
  | [] => .isTrue trivial
  | n :: ns =>
    have := decideWellFormed n
    have := decideAllWellFormed ns
    inferInstanceAs (Decidable (n.WellFormed ∧ AllWellFormed ns))

end

instance (ns : List Node) : Decidable (AllWellFormed ns) :=
  decideAllWellFormed ns

theorem allWellFormed_iff {ns : List Node} : AllWellFormed ns ↔ ∀ n ∈ ns, n.WellFormed := by
  induction ns with
  | nil => simp [AllWellFormed]
  | cons n ns ih => simp [AllWellFormed, ih]

mutual

def doubles : Node → List Float
  | text _ => []
  | echo es => es.flatMap Element.doubles
  | loop h ns => h.bounds.flatMap Element.doubles ++ allDoubles ns

def allDoubles : List Node → List Float
  | [] => []
  | n :: ns => doubles n ++ allDoubles ns

end

end Node

namespace Document

structure WellFormed (d : Document) : Prop where
  separated : Node.Separated d.nodes
  nodes : Node.AllWellFormed d.nodes

instance (d : Document) : Decidable d.WellFormed :=
  decidable_of_iff (Node.Separated d.nodes ∧ Node.AllWellFormed d.nodes)
    ⟨fun ⟨hs, hn⟩ => ⟨hs, hn⟩, fun h => ⟨h.separated, h.nodes⟩⟩

/-- The doubles that occur in a document. -/
def doubles (d : Document) : List Float :=
  Node.allDoubles d.nodes

example : (Document.mk [.text "a", .echo [.name "END", .integer 1], .text "b"]).WellFormed := by
  decide

example : ¬ (Document.mk [.text "a", .text "b"]).WellFormed := by
  decide

end Document

end PageServer.Template
