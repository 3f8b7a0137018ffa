/-!
# The value of a double

A finite double is a whole number of units, the unit being a power of two. This
module reads both off the bits, together with the reals that round to the
double: its neighbours are one unit away, except that below the least mantissa
of a binade the distance is half a unit.
-/

namespace PageServer.Decimal

/-- What a double stands for: `mantissa * 2 ^ exponent` up to sign, if it is
finite. -/
inductive Binary64 where
  | notANumber
  | infinite (negative : Bool)
  | finite (negative : Bool) (mantissa : Nat) (exponent : Int)
  deriving DecidableEq, Repr

namespace Binary64

def ofFloat (x : Float) : Binary64 :=
  let bits := x.toBits.toNat
  let negative := bits / Nat.pow 2 63 == 1
  let biased : Nat := bits / Nat.pow 2 52 % Nat.pow 2 11
  let fraction : Nat := bits % Nat.pow 2 52
  if biased = 2047 then
    if fraction = 0 then .infinite negative else .notANumber
  else if biased = 0 then .finite negative fraction (-1074)
  else .finite negative (fraction + Nat.pow 2 52) ((biased : Int) - 1075)

end Binary64

structure Ratio where
  num : Nat
  den : Nat
  deriving DecidableEq, Repr

namespace Ratio

/-- `m * 2 ^ e`. -/
def ofBinary (m : Nat) (e : Int) : Ratio :=
  if 0 ≤ e then ⟨m * Nat.pow 2 e.toNat, 1⟩ else ⟨m, Nat.pow 2 (-e).toNat⟩

/-- `r / 10 ^ k`. -/
def scale (r : Ratio) (k : Int) : Ratio :=
  if 0 ≤ k then ⟨r.num, r.den * Nat.pow 10 k.toNat⟩
  else ⟨r.num * Nat.pow 10 (-k).toNat, r.den⟩

def floor (r : Ratio) : Nat :=
  r.num / r.den

/-- The whole number nearest to the fraction; halfway between two, the even
one. -/
def nearestEven (r : Ratio) : Nat :=
  let q := r.num / r.den
  let twice := 2 * (r.num % r.den)
  if twice < r.den then q
  else if r.den < twice then q + 1
  else q + q % 2

/-- The exponent of the greatest power of ten that is not above a positive
fraction. -/
def leadingExponent (r : Ratio) : Int :=
  if r.den ≤ r.num then ((Nat.toDigits 10 (r.num / r.den)).length : Int) - 1
  else -((Nat.toDigits 10 ((r.den - 1) / r.num)).length : Int)

end Ratio

/-- The interval of reals that round to a double, in quarters of its unit: its
two ends and the double itself. -/
structure Rounding where
  lower : Nat
  value : Nat
  upper : Nat
  /-- Whether the two ends round to the double as well. -/
  closed : Bool
  deriving DecidableEq, Repr

/-- The interval around `m * 2 ^ e`, in quarters of `2 ^ e`. Rounding goes to
the even mantissa, so the ends belong to it just when `m` is even. -/
def Rounding.around (m : Nat) (e : Int) : Rounding where
  lower := if m = Nat.pow 2 52 ∧ -1074 < e then 4 * m - 1 else 4 * m - 2
  value := 4 * m
  upper := 4 * m + 2
  closed := m % 2 = 0

end PageServer.Decimal
