import PageServer.Config.Size
import PageServer.Logging.Filter

/-!
# Log settings

How events are logged is taken from the environment. What is missing or not
understood has a default.
-/

namespace PageServer.Logging

open Config (Environment)

inductive Format where
  | json
  | pretty
  deriving DecidableEq, Repr

def Format.ofText (s : String) : Format :=
  if Text.lower s = "json" then .json else .pretty

structure Settings where
  level : String
  format : Format
  /-- Further directives between commas. -/
  targetFilter : Option String
  /-- Whether events say where in the program they arose. -/
  includeLocation : Bool
  deriving DecidableEq, Repr

namespace Settings

def ofEnvironment (env : Environment) : Settings where
  level := (env.get? "SMARTSERVE_LOG_LEVEL").getD "info"
  format := .ofText ((env.get? "SMARTSERVE_LOG_FORMAT").getD "pretty")
  targetFilter := env.get? "SMARTSERVE_LOG_TARGET_FILTER"
  includeLocation := env.get? "SMARTSERVE_LOG_INCLUDE_LOCATION" == some "true"

/-- The level that the settings name, by a name in any letter case. -/
def threshold (s : Settings) : Level :=
  let names : List Level := [.trace, .debug, .warn, .error]
  (names.find? fun l => l.text == Text.lower s.level).getD .info

/-- The variable that replaces the level by a whole filter. -/
def filterVariable : String := "RUST_LOG"

def filter (s : Settings) (env : Environment) : Filter :=
  let start := ((env.get? filterVariable).bind Filter.parse?).getD (.ofLevel s.threshold)
  match s.targetFilter with
  | some targets => start.addAll targets
  | none => start

end Settings

end PageServer.Logging
