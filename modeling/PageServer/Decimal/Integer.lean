import PageServer.Decimal.Digits

/-!
# Whole numbers of 64 bits

Signed whole numbers that either fit in 64 bits or are refused: reading decimal
text and exact arithmetic. A sum, difference, product, quotient or power is
computed without bound first and then taken if it fits.
-/

namespace PageServer.Decimal

def int64? (i : Int) : Option Int64 :=
  if -0x8000000000000000 ≤ i ∧ i < 0x8000000000000000 then some (Int64.ofInt i) else none

def takeSign : List Char → Bool × List Char
  | '-' :: rest => (true, rest)
  | '+' :: rest => (false, rest)
  | cs => (false, cs)

def nat? (cs : List Char) : Option Nat :=
  if !cs.isEmpty && cs.all Char.isDigit then some (ofDigits cs) else none

def int? (cs : List Char) : Option Int :=
  let (negative, ds) := takeSign cs
  (nat? ds).map fun n => if negative then -(n : Int) else n

def readInt64? (cs : List Char) : Option Int64 :=
  (int? cs).bind int64?

/-- Unsigned decimal text, with an optional plus sign, below the bound. -/
def natBelow? (bound : Nat) (cs : List Char) : Option Nat :=
  let ds := match cs with
    | '+' :: rest => rest
    | _ => cs
  (nat? ds).filter (· < bound)

namespace Int64Arith

def add? (x y : Int64) : Option Int64 := int64? (x.toInt + y.toInt)

def sub? (x y : Int64) : Option Int64 := int64? (x.toInt - y.toInt)

def mul? (x y : Int64) : Option Int64 := int64? (x.toInt * y.toInt)

/-- The quotient rounded toward zero, for a divisor that is not zero. -/
def div? (x y : Int64) : Option Int64 := int64? (x.toInt.tdiv y.toInt)

/-- The power with an exponent below `2 ^ 32`. For a base of -1, 0 or 1 only
the parity of a positive exponent counts; any other base has left the range by
the 64th power. -/
def pow? (x : Int64) (n : Nat) : Option Int64 :=
  if UInt32.size ≤ n then none
  else if n = 0 then some 1
  else if x.toInt.natAbs ≤ 1 then int64? (x.toInt.pow (2 - n % 2))
  else if 64 ≤ n then none
  else int64? (x.toInt.pow n)

end Int64Arith

theorem int64?_eq_some_iff {i : Int} {x : Int64} : int64? i = some x ↔ x.toInt = i := by
  have hlo := x.le_toInt
  have hhi := x.toInt_lt
  constructor
  · intro h
    unfold int64? at h
    split at h
    · next hr =>
      obtain rfl := Option.some.inj h
      exact Int64.toInt_ofInt_of_le hr.1 hr.2
    · cases h
  · rintro rfl
    rw [int64?, if_pos ⟨hlo, hhi⟩, Int64.ofInt_toInt]

theorem int64?_eq_none_iff {i : Int} :
    int64? i = none ↔ i < -0x8000000000000000 ∨ 0x8000000000000000 ≤ i := by
  unfold int64?
  split <;> simp <;> omega

end PageServer.Decimal
