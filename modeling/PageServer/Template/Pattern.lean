import PageServer.Template.Value
import PageServer.Text.Split

/-!
# Decimal patterns

A pattern says with how many digits a number is written: a `0` stands for a
digit that is always there, a `#` after the point for one that is left out when
it and all digits after it are zero. Other characters of a pattern mean
nothing, and only its first point counts.
-/

namespace PageServer.Template

structure Pattern where
  /-- The least number of digits before the point. -/
  minWhole : Nat
  /-- The least number of digits after the point. -/
  minPlaces : Nat
  /-- The greatest number of digits after the point. -/
  maxPlaces : Nat
  deriving DecidableEq, Repr

namespace Pattern

def ofChars (cs : List Char) : Pattern :=
  let (whole, places) := (Text.cutBy? (· == '.') cs).getD (cs, [])
  ⟨whole.count '0', places.count '0', places.count '0' + places.count '#'⟩

/-- Drops zeros at the end as long as more than `least` digits are left. -/
def trimZeros (least : Nat) (ds : List Char) : List Char :=
  ds.take least ++ Text.dropEndWhile (· == '0') (ds.drop least)

/-- The digits before and after the point, and the sign, put together. -/
def assemble (negative : Bool) (whole places : List Char) : List Char :=
  let zero := (whole ++ places).all (· == '0')
  let sign := if negative && !zero then ['-'] else []
  let out := sign ++ whole ++ if places.isEmpty then [] else '.' :: places
  if out.isEmpty then ['0'] else out

def format (p : Pattern) (n : Number) : List Char :=
  let x := n.toFloat
  let (whole, places) := Decimal.fixed x p.maxPlaces
  let places := trimZeros p.minPlaces places
  let whole := Decimal.zeros (p.minWhole - whole.length) ++ whole
  let whole := if p.minWhole = 0 && whole == ['0'] && !places.isEmpty then [] else whole
  assemble (x < 0) whole places

end Pattern

def formatDecimal (n : Number) (pattern : String) : String :=
  String.ofList ((Pattern.ofChars pattern.toList).format n)

end PageServer.Template
