import PageServer.Decimal.Digits
import PageServer.Decimal.Shortest

/-!
# Decimal notations of a double

Three ways of writing the same number: plain notation never has an exponent,
fixed notation has as many places as asked for, and exchange notation changes
to an exponent for very large and very small numbers.
-/

namespace PageServer.Decimal

/-- `c * 10 ^ k` without an exponent. -/
def plainScientific (s : Scientific) : List Char :=
  let ds := digits s.coefficient
  if 0 ≤ s.exponent then ds ++ zeros s.exponent.toNat
  else
    let places := (-s.exponent).toNat
    if places < ds.length then
      ds.take (ds.length - places) ++ '.' :: ds.drop (ds.length - places)
    else '0' :: '.' :: (zeros (places - ds.length) ++ ds)

/-- The fewest digits that read back, never with an exponent. -/
def plain (x : Float) : List Char :=
  match Binary64.ofFloat x with
  | .notANumber => "NaN".toList
  | .infinite negative => (if negative then ['-'] else []) ++ "inf".toList
  | .finite negative m e =>
    (if negative then ['-'] else []) ++
      if m = 0 then ['0'] else plainScientific (shortest .up m e)

/-- Plain notation with a point, so that it is not taken for a whole number. -/
def pointed (x : Float) : List Char :=
  let text := plain x
  if text.contains '.' then text else text ++ ['.', '0']

/-- A natural number over a power of ten, with that many places. -/
def fixedDigits (n places : Nat) : List Char × List Char :=
  let ds := digits n
  let ds := zeros (places + 1 - ds.length) ++ ds
  (ds.take (ds.length - places), ds.drop (ds.length - places))

/-- The absolute value rounded to so many places, a half to the even neighbour,
as digits before and after the point. What is no finite number has its name for
the digits before the point. -/
def fixed (x : Float) (places : Nat) : List Char × List Char :=
  match Binary64.ofFloat x with
  | .notANumber => ("NaN".toList, [])
  | .infinite _ => ("inf".toList, [])
  | .finite _ m e => fixedDigits ((Ratio.ofBinary m e).scale (-places)).nearestEven places

/-- Exchange notation writes numbers whose leading digit stands for a power of
ten from `-5` to `15` without an exponent and with a point; others have one
digit before the point and an exponent. What is no finite number has no such
notation. -/
def exchange? (x : Float) : Option (List Char) :=
  match Binary64.ofFloat x with
  | .finite negative m e =>
    let body :=
      if m = 0 then ['0', '.', '0']
      else
        let s := shortest .toEven m e
        let ds := digits s.coefficient
        let leading := s.exponent + ds.length - 1
        if -5 ≤ leading ∧ leading < 16 then
          let text := plainScientific s
          if text.contains '.' then text else text ++ ['.', '0']
        else
          let mantissa := match ds with
            | d :: d' :: rest => d :: '.' :: d' :: rest
            | _ => ds
          mantissa ++ 'e' :: (if leading < 0 then '-' else '+') :: digits leading.natAbs
    some ((if negative then ['-'] else []) ++ body)
  | _ => none

end PageServer.Decimal
