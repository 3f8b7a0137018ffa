import PageServer.Text.CharClass

/-!
# Whole numbers in other bases

Digits of a base up to sixteen, in either letter case.
-/

namespace PageServer.Decimal

def digitIn? (base : Nat) (c : Char) : Option Nat :=
  (Text.hexValue? c).filter (· < base)

def readDigits (base : Nat) : Nat → List Char → Option Nat
  | n, [] => some n
  | n, c :: cs =>
    match digitIn? base c with
    | some d => readDigits base (base * n + d) cs
    | none => none

/-- The value of one or more digits of the base and nothing else, if it is
below the bound. -/
def natIn? (base bound : Nat) (cs : List Char) : Option Nat :=
  if cs.isEmpty then none else (readDigits base 0 cs).filter (· < bound)

end PageServer.Decimal
