import PageServer.CommandLine.Options

/-!
# Commands

The commands of the program, how they are written, and the texts that explain
them.
-/

namespace PageServer.CommandLine

inductive Command where
  | serve (config : String)
  | render (template : String) (params : List (String × String))
  /-- Prints a template in its canonical form, or its tree. -/
  | tree (template : String) (json : Bool)
  deriving DecidableEq, Repr

/-- The commands by their names alone. -/
inductive Verb where
  | serve
  | render
  | tree
  deriving DecidableEq, Repr

namespace Verb

def all : List Verb := [serve, render, tree]

def name : Verb → String
  | serve => "serve"
  | render => "render"
  | tree => "tree"

def ofName? (name : String) : Option Verb :=
  all.find? fun v => v.name == name

end Verb

def configOption : OptionSpec := ⟨"config", some 'c', .value "CONFIG" .path false⟩

def paramOption : OptionSpec := ⟨"param", some 'p', .value "KEY=VALUE" .pair true⟩

/-- The document root for further pages. A template leads to none, so nothing
below it is read. -/
def rootOption : OptionSpec := ⟨"root", none, .value "ROOT" .path false⟩

def jsonOption : OptionSpec := ⟨"json", none, .flag⟩

def templateLabel : String := "<SCRIPT>"

namespace Verb

def grammar : Verb → Grammar
  | serve => ⟨[configOption], none⟩
  | render => ⟨[paramOption, rootOption], some templateLabel⟩
  | tree => ⟨[jsonOption], some templateLabel⟩

def command (v : Verb) (m : Matches) : Except UsageError Command :=
  match v with
  | serve =>
    match m.values configOption with
    | config :: _ => .ok (.serve config)
    | [] => .error (.missingArgument configOption.label)
  | render =>
    match m.argument with
    | some template =>
      .ok (.render template ((m.values paramOption).filterMap readPair?))
    | none => .error (.missingArgument templateLabel)
  | tree =>
    match m.argument with
    | some template => .ok (.tree template !(m.values jsonOption).isEmpty)
    | none => .error (.missingArgument templateLabel)

/-! ### Explanations -/

def usage : Verb → String
  | serve => "smartserve serve --config <CONFIG>"
  | render => "smartserve render [OPTIONS] <SCRIPT>"
  | tree => "smartserve tree [OPTIONS] <SCRIPT>"

def help (v : Verb) : String :=
  match v with
  | serve =>
    "Run the server until SIGINT or SIGTERM\n\n" ++
    "Usage: " ++ v.usage ++ "\n\n" ++
    "Options:\n" ++
    "  -c, --config <CONFIG>  Path to the YAML server configuration\n" ++
    "  -h, --help             Print help\n"
  | render =>
    "Execute a script and write the response (header and body) to stdout\n\n" ++
    "Usage: " ++ v.usage ++ "\n\n" ++
    "Arguments:\n" ++
    "  <SCRIPT>  \n\n" ++
    "Options:\n" ++
    "  -p, --param <KEY=VALUE>  Query parameter visible to the script, repeatable\n" ++
    "      --root <ROOT>        Document root used for nested `dispatch` calls\n" ++
    "  -h, --help               Print help\n"
  | tree =>
    "Parse a script and print its canonical source or JSON AST\n\n" ++
    "Usage: " ++ v.usage ++ "\n\n" ++
    "Arguments:\n" ++
    "  <SCRIPT>  \n\n" ++
    "Options:\n" ++
    "      --json  \n" ++
    "  -h, --help  Print help\n"

end Verb

def usage : String := "smartserve <COMMAND>"

def help : String :=
  "SmartScript HTTP server\n\n" ++
  "Usage: " ++ usage ++ "\n\n" ++
  "Commands:\n" ++
  "  serve   Run the server until SIGINT or SIGTERM\n" ++
  "  render  Execute a script and write the response (header and body) to stdout\n" ++
  "  tree    Parse a script and print its canonical source or JSON AST\n" ++
  "  help    Print this message or the help of the given subcommand(s)\n\n" ++
  "Options:\n" ++
  "  -h, --help  Print help\n"

def helpName : String := "help"

def helpUsage : String := "smartserve help [COMMAND]..."

/-- The explanation of the command that explains the others. -/
def helpHelp : String :=
  "Print this message or the help of the given subcommand(s)\n\n" ++
  "Usage: " ++ helpUsage ++ "\n\n" ++
  "Arguments:\n" ++
  "  [COMMAND]...  Print help for the subcommand(s)\n"

/-! ### Reading a command line -/

inductive Intent where
  | run (c : Command)
  | explain (text : String)
  deriving DecidableEq, Repr

/-- A command line that is not understood, and how it should have been written. -/
structure Misuse where
  error : UsageError
  usage : String
  deriving DecidableEq, Repr

/-- The text of a misuse on the error output, where the usage is left out if only
a value is at fault. Without any command the text is the explanation of all of
them. -/
def Misuse.report (m : Misuse) : String :=
  let hint := "\n\nFor more information, try '" ++ Text.emphasized "--help" ++ "'.\n"
  match m.error with
  | .missingCommand => help
  | .notAPair label value =>
    s!"error: {(UsageError.notAPair label value).message}{hint}"
  | e => s!"error: {e.message}\n\nUsage: {m.usage}{hint}"

/-- The explanation of a command, if nothing is asked of it. -/
def explainOne (text usage : String) : List String → Except Misuse Intent
  | [] => .ok (.explain text)
  | name :: _ => .error ⟨.unknownCommand name, usage⟩

def explain : List String → Except Misuse Intent
  | [] => .ok (.explain help)
  | name :: rest =>
    match Verb.ofName? name with
    | some v => explainOne v.help v.usage rest
    | none =>
      if name == helpName then explainOne helpHelp helpUsage rest
      else .error ⟨.unknownCommand name, usage⟩

def parseVerb (v : Verb) (arguments : List String) : Except Misuse Intent :=
  let refuse (e : UsageError) : Except Misuse Intent := .error ⟨e, v.usage⟩
  match v.grammar.read arguments with
  | .error e => refuse e
  | .ok none => .ok (.explain v.help)
  | .ok (some found) =>
    match v.command found with
    | .error e => refuse e
    | .ok c => .ok (.run c)

def isOption (argument : String) : Bool :=
  match argument.toList with
  | '-' :: _ :: _ => true
  | _ => false

/-- Why nothing may follow the mark that ends the options: a command would be
meant without the mark. -/
def afterMark (argument : String) : UsageError :=
  if (Verb.ofName? argument).isSome || argument == helpName then .unexpectedArgument argument
  else .unknownCommand argument

def parse (arguments : List String) : Except Misuse Intent :=
  match arguments with
  | [] => .error ⟨.missingCommand, usage⟩
  | name :: rest =>
    match Verb.ofName? name with
    | some v => parseVerb v rest
    | none =>
      if name == helpName then explain rest
      else if isOption name then
        match Grammar.read ⟨[], none⟩ [name] with
        | .error e => .error ⟨e, usage⟩
        | .ok none => .ok (.explain help)
        | .ok (some _) =>
          match rest with
          | [] => .error ⟨.missingCommand, usage⟩
          | next :: _ => .error ⟨afterMark next, usage⟩
      else .error ⟨.unknownCommand name, usage⟩

end PageServer.CommandLine
