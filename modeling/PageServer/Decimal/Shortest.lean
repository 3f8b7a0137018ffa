import PageServer.Decimal.Binary64

/-!
# The fewest digits that read back

A positive double is written with the fewest significant digits that still
round to it. On the first decimal grid that meets the interval of reals
rounding to the double one of the two neighbours of its value lies in that
interval; the nearer one is taken, and the notation says which of two equally
near ones.
-/

namespace PageServer.Decimal

/-- `coefficient * 10 ^ exponent`. -/
structure Scientific where
  coefficient : Nat
  exponent : Int
  deriving DecidableEq, Repr

/-- Which of two equally near decimals is written. -/
inductive Tie where
  | up
  | toEven
  deriving DecidableEq, Repr

namespace Shortest

/-- Whether `c * 10 ^ k` rounds to the double whose interval is `i`, in quarters
of `2 ^ e`. -/
def within (i : Rounding) (e : Int) (c : Nat) (k : Int) : Bool :=
  let lower := (Ratio.ofBinary i.lower (e - 2)).scale k
  let upper := (Ratio.ofBinary i.upper (e - 2)).scale k
  if i.closed then lower.num ≤ c * lower.den && c * upper.den ≤ upper.num
  else lower.num < c * lower.den && c * upper.den < upper.num

/-- The nearer of the neighbours `n` and `n + 1` of a value. -/
def nearer (tie : Tie) (value : Ratio) (n : Nat) : Nat :=
  let twice := 2 * (value.num % value.den)
  if twice < value.den then n
  else if value.den < twice then n + 1
  else match tie with
    | .up => n + 1
    | .toEven => n + n % 2

/-- The neighbour of the value on the grid of multiples of `10 ^ k` that rounds
to the double, if there is one. -/
def onGrid? (tie : Tie) (i : Rounding) (e k : Int) : Option Nat :=
  let value := (Ratio.ofBinary i.value (e - 2)).scale k
  let below := value.floor
  match within i e below k, within i e (below + 1) k with
  | true, true => some (nearer tie value below)
  | true, false => some below
  | false, true => some (below + 1)
  | false, false => none

/-- Tries grids with ever more digits. -/
def search (tie : Tie) (i : Rounding) (e : Int) : Nat → Int → Scientific
  | 0, k => ⟨((Ratio.ofBinary i.value (e - 2)).scale k).nearestEven, k⟩
  | tries + 1, k =>
    match onGrid? tie i e k with
    | some c => ⟨c, k⟩
    | none => search tie i e tries (k - 1)

end Shortest

/-- The shortest decimal that rounds to `m * 2 ^ e`, for a positive mantissa.
Seventeen digits always suffice. -/
def shortest (tie : Tie) (m : Nat) (e : Int) : Scientific :=
  let found := Shortest.search tie (.around m e) e 17 (Ratio.ofBinary m e).leadingExponent
  if found.coefficient % 10 = 0 then ⟨found.coefficient / 10, found.exponent + 1⟩ else found

end PageServer.Decimal
