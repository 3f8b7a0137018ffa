/-!
# Bounded runs

Loops of a template and pages that lead to further pages need not end. A run is
given bounds and stops either because something failed or because a bound was
reached; a run that reached none has the same outcome under any larger bounds.
-/

namespace PageServer

/-- Why a run stopped before its end. -/
inductive Stop (ε : Type) where
  | failed (e : ε)
  | cutOff
  deriving DecidableEq, Repr

def Stop.map {ε δ : Type} (f : ε → δ) : Stop ε → Stop δ
  | failed e => .failed (f e)
  | cutOff => .cutOff

structure Bounds where
  /-- How often the body of one loop may run. -/
  iterations : Nat
  /-- How many pages may lead to one another. -/
  pages : Nat
  deriving DecidableEq, Repr

end PageServer
