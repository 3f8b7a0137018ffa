import PageServer.Decimal.Integer

/-!
# Reading a double

The text of a double is an optional sign and then digits with at most one point
among or around them and an optional exponent, or the name of infinity or of
what is not a number in any letter case. The value is the double nearest to the
exact decimal value.
-/

namespace PageServer.Decimal

/-- The double nearest to `m * 10 ^ e`. A number with more than 310 digits
before the point is beyond all finite doubles, one with more than 330 zeros
after it is nearer to zero than to any other. -/
def ofScientific (m : Nat) (e : Int) : Float :=
  if m = 0 then 0
  else
    let magnitude := ((digits m).length : Int) + e
    if 310 < magnitude then Float.ofBits 0x7ff0000000000000
    else if magnitude < -330 then 0
    else Float.ofScientific m (e < 0) e.natAbs

/-- Digits, a point and more digits: the number without the point, and how many
digits follow the point. -/
def mantissa? (cs : List Char) : Option (Nat × Nat × List Char) :=
  let whole := cs.takeWhile Char.isDigit
  let rest := cs.dropWhile Char.isDigit
  let (places, rest) := match rest with
    | '.' :: rest => (rest.takeWhile Char.isDigit, rest.dropWhile Char.isDigit)
    | _ => ([], rest)
  if whole.isEmpty && places.isEmpty then none
  else some (ofDigits (whole ++ places), places.length, rest)

/-- The exponent at the end of a number, zero if there is none. -/
def exponent? : List Char → Option Int
  | [] => some 0
  | c :: cs => if c = 'e' || c = 'E' then int? cs else none

def unsigned? (cs : List Char) : Option Float :=
  let name := cs.map Char.toLower
  if name = "inf".toList || name = "infinity".toList then some (Float.ofBits 0x7ff0000000000000)
  else if name = "nan".toList then some (Float.ofBits 0x7ff8000000000000)
  else do
    let (m, places, rest) ← mantissa? cs
    let e ← exponent? rest
    some (ofScientific m (e - places))

def readFloat? (cs : List Char) : Option Float :=
  let (negative, body) := takeSign cs
  (unsigned? body).map fun x => if negative then -x else x

end PageServer.Decimal
