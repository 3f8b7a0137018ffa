import PageServer.Decimal.Notation
import PageServer.Decimal.Reader
import PageServer.Template.Document
import PageServer.Text.Trim

/-!
# Values and arithmetic

The values on the stack of an echo are whole numbers, doubles and strings. In
arithmetic a string stands for the number it spells. Whole numbers stay whole
and never overflow silently; a double result is never infinite or undefined.
-/

namespace PageServer.Template

inductive Number where
  | int (v : Int64)
  | double (x : Float)
  deriving BEq

inductive Value where
  | int (v : Int64)
  | double (x : Float)
  | string (s : String)
  deriving BEq

inductive ValueError where
  | notANumber (text : String)
  | divisionByZero
  | overflow (left : Int64) (op : Char) (right : Int64)
  /-- The result is infinite or undefined. -/
  | nonFinite (op : Char)
  | unknownOperator (op : Char)
  deriving DecidableEq, Repr

def ValueError.message : ValueError → String
  | notANumber text => s!"`{text}` is not a number"
  | divisionByZero => "division by zero"
  | overflow x op y =>
    s!"integer overflow in {Decimal.intText x.toInt} {op.toString} {Decimal.intText y.toInt}"
  | nonFinite op => s!"`{op.toString}` produced a non-finite result"
  | unknownOperator op => s!"unknown operator `{op.toString}`"

namespace Number

/-- The number as a double, the nearest one to a whole number. -/
def toFloat : Number → Float
  | int v => Float.ofInt v.toInt
  | double x => x

def isZero : Number → Bool
  | int v => v == 0
  | double x => x == 0

def isNegative : Number → Bool
  | int v => v < 0
  | double x => x < 0

def toValue : Number → Value
  | int v => .int v
  | double x => .double x

def chars : Number → List Char
  | int v => Decimal.signed v.toInt
  | double x => Decimal.pointed x

def text (n : Number) : String :=
  String.ofList n.chars

/-- The number that a text spells. A point or an exponent makes it a double;
white space around it does not count. -/
def parse (text : String) : Except ValueError Number :=
  let cs := Text.trimChars text.toList
  let read :=
    if cs.any fun c => c == '.' || c == 'e' || c == 'E' then
      (Decimal.readFloat? cs).map double
    else (Decimal.readInt64? cs).map int
  match read with
  | some n => .ok n
  | none => .error (.notANumber text)

end Number

namespace Value

def text : Value → String
  | int v => Decimal.intText v.toInt
  | double x => String.ofList (Decimal.pointed x)
  | string s => s

def toNumber : Value → Except ValueError Number
  | int v => .ok (.int v)
  | double x => .ok (.double x)
  | string s => Number.parse s

def ofElement? : Element → Option Value
  | .integer v => some (.int v)
  | .double x => some (.double x)
  | .string s => some (.string s)
  | .name _ | .function _ | .operator _ => none

end Value

def finite (op : Char) (x : Float) : Except ValueError Value :=
  if x.isFinite then .ok (.double x) else .error (.nonFinite op)

/-- Arithmetic on whole numbers. Division rounds toward zero; a negative power
is a double. -/
def applyInt (op : Char) (x y : Int64) : Except ValueError Value :=
  let exact (r : Option Int64) : Except ValueError Value :=
    match r with
    | some v => .ok (.int v)
    | none => .error (.overflow x op y)
  if op = '+' then exact (Decimal.Int64Arith.add? x y)
  else if op = '-' then exact (Decimal.Int64Arith.sub? x y)
  else if op = '*' then exact (Decimal.Int64Arith.mul? x y)
  else if op = '/' then
    if y = 0 then .error .divisionByZero else exact (Decimal.Int64Arith.div? x y)
  else if op = '^' then
    if y < 0 then finite op (Float.ofInt x.toInt ^ Float.ofInt y.toInt)
    else exact (Decimal.Int64Arith.pow? x y.toInt.toNat)
  else .error (.unknownOperator op)

def applyFloat (op : Char) (x y : Float) : Except ValueError Value :=
  if op = '+' then finite op (x + y)
  else if op = '-' then finite op (x - y)
  else if op = '*' then finite op (x * y)
  else if op = '/' then finite op (x / y)
  else if op = '^' then finite op (x ^ y)
  else .error (.unknownOperator op)

/-- Applies an operator. Two whole numbers give a whole number, any other two
numbers a double. -/
def applyOperator (op : Char) (left right : Value) : Except ValueError Value := do
  let a ← left.toNumber
  let b ← right.toNumber
  match a, b with
  | .int x, .int y => applyInt op x y
  | _, _ => applyFloat op a.toFloat b.toFloat

end PageServer.Template
