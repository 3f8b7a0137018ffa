import PageServer.Decimal.Integer
import PageServer.Text.Casing

/-!
# Log levels

A level is given by its number or by its name in any letter case.
-/

namespace PageServer.Logging

inductive Level where
  | off | error | warn | info | debug | trace
  deriving DecidableEq, Repr

namespace Level

/-- All levels, each at the place of the number it may be given by. -/
def all : List Level := [off, error, warn, info, debug, trace]

def text : Level → String
  | off => "off"
  | error => "error"
  | warn => "warn"
  | info => "info"
  | debug => "debug"
  | trace => "trace"

def ofText? (s : String) : Option Level :=
  match Decimal.natBelow? all.length s.toList with
  | some n => all[n]?
  | none => all.find? fun l => l.text == Text.asciiLower s

end Level

end PageServer.Logging
