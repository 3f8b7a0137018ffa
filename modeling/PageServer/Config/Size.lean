import PageServer.Decimal.Integer
import PageServer.Decimal.Radix
import PageServer.Table
import PageServer.Text.Split

/-!
# Sizes

A size is a number of bytes, in decimal or after `0x` in hexadecimal, that fits
in 64 bits. The environment may give the stack size of the server's workers.
-/

namespace PageServer.Config

abbrev Environment := Table String

/-- Hexadecimal digits after an optional plus sign. -/
def hexSize? (cs : List Char) : Option Nat :=
  match cs with
  | '+' :: rest => Decimal.natIn? 16 UInt64.size rest
  | _ => Decimal.natIn? 16 UInt64.size cs

def parseSize? (text : String) : Option Nat :=
  match Text.trimChars text.toList with
  | '0' :: 'x' :: hex | '0' :: 'X' :: hex => hexSize? hex
  | cs => Decimal.natBelow? UInt64.size cs

def stackSizeVariable : String := "SMARTSERVE_STACK_SIZE"

def defaultStackSize : Nat := 0x10000

def stackSize (env : Environment) : Nat :=
  ((env.get? stackSizeVariable).bind parseSize?).getD defaultStackSize

end PageServer.Config
