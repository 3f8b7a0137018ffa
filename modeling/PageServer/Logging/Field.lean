import PageServer.Decimal.Notation
import PageServer.Decimal.Reader
import PageServer.Logging.Pattern
import PageServer.Text.Split

/-!
# Fields in log directives

A directive may ask for a field by its name, and for its value. A value is read
as the first of these that it can be: a truth value, a whole number without and
with a sign, a double, a pattern.
-/

namespace PageServer.Logging

inductive FieldValue where
  | truth (b : Bool)
  | double (x : Float)
  | notANumber
  | unsigned (n : Nat)
  | signed (i : Int64)
  | pattern (s : String)
  deriving Repr

namespace FieldValue

/-- The double of a text, told apart from what is not a number. -/
def double? (s : String) : Option FieldValue :=
  (Decimal.readFloat? s.toList).map fun x => if x.isNaN then notANumber else double x

def parse? (s : String) : Option FieldValue :=
  if s == "true" then some (truth true)
  else if s == "false" then some (truth false)
  else
    ((Decimal.natBelow? UInt64.size s.toList).map unsigned <|>
      (Decimal.readInt64? s.toList).map signed <|>
      double? s) <|>
    if Pattern.isPattern s then some (pattern s) else none

def text : FieldValue → String
  | truth b => if b then "true" else "false"
  | double x => String.ofList (Decimal.plain x)
  | notANumber => "NaN"
  | unsigned n => Decimal.natText n
  | signed i => Decimal.intText i.toInt
  | pattern s => s

def rank : FieldValue → Nat
  | truth _ => 0
  | double _ => 1
  | notANumber => 2
  | unsigned _ => 3
  | signed _ => 4
  | pattern _ => 5

def order : FieldValue → FieldValue → Ordering
  | truth a, truth b => compare a.toNat b.toNat
  | double x, double y => if x < y then .lt else if y < x then .gt else .eq
  | unsigned m, unsigned n => compare m n
  | signed i, signed j => compare i.toInt j.toInt
  | pattern s, pattern t => compare s t
  | v, w => compare v.rank w.rank

instance : Ord FieldValue := ⟨order⟩

end FieldValue

/-- A field that has to be there, with some value or any. -/
structure FieldMatch where
  name : String
  value : Option FieldValue
  deriving Repr

namespace FieldMatch

/-- The field of a text that is not empty: a name, and a value after `=`. What a
second `=` begins does not count. -/
def parse? (s : String) : Option FieldMatch :=
  match Text.splitAt '=' s.toList with
  | [] | [[]] => none
  | [name] => some ⟨String.ofList name, none⟩
  | name :: value :: _ =>
    (FieldValue.parse? (String.ofList value)).map fun v => ⟨String.ofList name, some v⟩

def text (m : FieldMatch) : String :=
  match m.value with
  | none => m.name
  | some v => m.name ++ "=" ++ v.text

/-- Fields without a value come first, then those of a lesser name. -/
def order (a b : FieldMatch) : Ordering :=
  (compare a.value.isSome.toNat b.value.isSome.toNat).then
    ((compare a.name b.name).then (compare a.value b.value))

instance : Ord FieldMatch := ⟨order⟩

end FieldMatch

end PageServer.Logging
