import PageServer.Text.Split
import PageServer.Text.Styled

/-!
# Options of a command line

An option is given by its long or short name, its value after it or attached to
it. The value of an option is looked at when the next known option or argument
begins, so an unknown argument is reported before a bad value right in front of
it.
-/

namespace PageServer.CommandLine

inductive ValueKind where
  /-- A path, which is not empty. -/
  | path
  /-- A name and a value with `=` between them. -/
  | pair
  deriving DecidableEq, Repr

inductive OptionKind where
  | flag
  | value (label : String) (kind : ValueKind) (repeatable : Bool)
  deriving DecidableEq, Repr

structure OptionSpec where
  long : String
  short : Option Char
  kind : OptionKind
  deriving DecidableEq, Repr

/-- An option as errors name it. -/
def OptionSpec.label (o : OptionSpec) : String :=
  match o.kind with
  | .flag => s!"--{o.long}"
  | .value label .. => s!"--{o.long} <{label}>"

/-- The name and value of a pair. Only the value may be empty. -/
def readPair? (text : String) : Option (String × String) :=
  (Text.cut? '=' text).filter fun p => !p.1.isEmpty

inductive UsageError where
  | missingCommand
  | unknownCommand (name : String)
  | unexpectedArgument (argument : String)
  | missingValue (label : String)
  | notAPair (label value : String)
  | valueForFlag (label value : String)
  | repeated (label : String)
  | missingArgument (label : String)
  deriving DecidableEq, Repr

def UsageError.message : UsageError → String
  | missingCommand => "a command is required"
  | unknownCommand name => s!"unrecognized subcommand '{Text.emphasized name}'"
  | unexpectedArgument argument => s!"unexpected argument '{Text.emphasized argument}' found"
  | missingValue label => s!"a value is required for '{label}' but none was supplied"
  | notAPair label value =>
    s!"invalid value '{Text.emphasized value}' for '{label}': expected KEY=VALUE, got `{value}`"
  | valueForFlag label value =>
    s!"unexpected value '{Text.emphasized value}' for '{label}' found; no more were expected"
  | repeated label => s!"the argument '{label}' cannot be used multiple times"
  | missingArgument label => s!"the following required arguments were not provided:\n  {label}"

/-! ### Reading -/

/-- What a value is for: an option or the one argument. -/
inductive Slot where
  | option (o : OptionSpec)
  | argument
  deriving DecidableEq, Repr

/-- The options and the argument that a command may be given. -/
structure Grammar where
  options : List OptionSpec
  /-- How errors name the argument, if there may be one. -/
  argument : Option String

structure Matches where
  /-- Options with their values, in order; flags have empty ones. -/
  options : List (OptionSpec × String)
  argument : Option String

structure Reader where
  found : Matches
  /-- The slot whose value is not yet looked at, or not yet given. -/
  pending : Option (Slot × Option String)
  /-- The argument was given, even if it was not looked at. -/
  hasArgument : Bool

namespace Reader

def start : Reader := ⟨⟨[], none⟩, none, false⟩

def accept (g : Grammar) (found : Matches) (slot : Slot) (value : String) :
    Except UsageError Matches :=
  match slot with
  | .argument =>
    if value.isEmpty then .error (.missingValue (g.argument.getD ""))
    else .ok { found with argument := some value }
  | .option o =>
    let given := found.options.any fun x => x.1 == o
    let found := { found with options := found.options ++ [(o, value)] }
    match o.kind with
    | .flag => if given then .error (.repeated o.label) else .ok found
    | .value _ kind repeatable =>
      if given && !repeatable then .error (.repeated o.label)
      else
        match kind with
        | .path => if value.isEmpty then .error (.missingValue o.label) else .ok found
        | .pair =>
          if (readPair? value).isSome then .ok found else .error (.notAPair o.label value)

/-- Looks at the pending value. -/
def settle (g : Grammar) (r : Reader) : Except UsageError Reader :=
  match r.pending with
  | none => .ok r
  | some (.option o, none) => .error (.missingValue o.label)
  | some (.argument, none) => .error (.missingValue (g.argument.getD ""))
  | some (slot, some value) => do
    return { r with found := ← accept g r.found slot value, pending := none }

def takeOption (g : Grammar) (o : OptionSpec) (attached : Option String) (r : Reader) :
    Except UsageError Reader :=
  match o.kind, attached with
  | .flag, some value => .error (.valueForFlag o.label value)
  | .flag, none => do
    let r ← r.settle g
    return { r with found := ← accept g r.found (.option o) "" }
  | .value .., some value => do
    let r ← r.settle g
    return { r with found := ← accept g r.found (.option o) value }
  | .value .., none => do
    let r ← r.settle g
    return { r with pending := some (.option o, none) }

/-- Takes a text that is no option: the value of the option before it or the
argument. -/
def takeText (g : Grammar) (text : String) (asValue : Bool) (r : Reader) :
    Except UsageError Reader :=
  match asValue, r.pending with
  | true, some (.option o, none) => .ok { r with pending := some (.option o, some text) }
  | _, _ =>
    if g.argument.isNone || r.hasArgument then .error (.unexpectedArgument text)
    else do
      let r ← r.settle g
      return { r with pending := some (.argument, some text), hasArgument := true }

/-- The help was asked for. -/
inductive Asked where
  | help
  | no

/-- A cluster of short options, the last of which may have a value. -/
def takeShort (g : Grammar) : List Char → Reader → Except UsageError (Asked × Reader)
  | [], r => .ok (.no, r)
  | c :: rest, r =>
    match g.options.find? fun o => o.short == some c with
    | none =>
      if c == 'h' then do return (.help, ← r.settle g)
      else .error (.unexpectedArgument s!"-{c}")
    | some o =>
      match o.kind with
      | .flag => do takeShort g rest (← r.takeOption g o none)
      | .value .. => do
        let attached := match rest with
          | [] => none
          | '=' :: value => some (String.ofList value)
          | value => some (String.ofList value)
        return (.no, ← r.takeOption g o attached)

/-- An option by its long name, and the value after an `=`. -/
def takeLong (g : Grammar) (text : String) (r : Reader) : Except UsageError (Asked × Reader) :=
  let (name, attached) := match Text.cut? '=' text with
    | some (name, value) => (name, some value)
    | none => (text, none)
  match g.options.find? fun o => o.long == name with
  | some o => do return (.no, ← r.takeOption g o attached)
  | none =>
    if name == "help" then
      match attached with
      | some value => .error (.valueForFlag "--help" value)
      | none => do return (.help, ← r.settle g)
    else .error (.unexpectedArgument s!"--{name}")

/-- Reads arguments until they end or help is asked for. After `--` none of
them is an option. -/
def read (g : Grammar) (literal : Bool) : List String → Reader → Except UsageError (Asked × Reader)
  | [], r => do return (.no, ← r.settle g)
  | text :: rest, r =>
    match literal, text.toList with
    | false, ['-', '-'] => read g true rest r
    | false, '-' :: '-' :: long => do
      match ← r.takeLong g (String.ofList long) with
      | (.help, r) => return (.help, r)
      | (.no, r) => read g false rest r
    | false, '-' :: c :: short => do
      match ← r.takeShort g (c :: short) with
      | (.help, r) => return (.help, r)
      | (.no, r) => read g false rest r
    | _, _ => do read g literal rest (← r.takeText g text (!literal))

end Reader

/-- What a command line means to a grammar; nothing if it asks for help. -/
def Grammar.read (g : Grammar) (arguments : List String) : Except UsageError (Option Matches) := do
  match ← Reader.read g false arguments .start with
  | (.help, _) => return none
  | (.no, r) => return some r.found

def Matches.values (m : Matches) (o : OptionSpec) : List String :=
  (m.options.filter fun x => x.1 == o).map Prod.snd

end PageServer.CommandLine
