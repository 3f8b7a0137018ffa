import PageServer.CommandLine.Command
import PageServer.Config.Load
import PageServer.Template.Outline
import PageServer.Template.Render

/-!
# Running a command

A command reads files and then ends with an exit code and what it wrote, or
goes on as a server.
-/

namespace PageServer.CommandLine

structure Outcome where
  exitCode : Nat
  output : Bytes
  errors : String
  deriving DecidableEq, Repr

inductive Result where
  | ended (o : Outcome)
  /-- The server is to be started. -/
  | serving (config : ServerConfig) (site : Site)
  /-- A loop of a template was cut off. -/
  | cutOff

/-- A message and its cause, the lines of which are indented. -/
def report : List String → String
  | [] => ""
  | [message] => s!"Error: {message}\n"
  | message :: causes =>
    let indent (cause : String) : String :=
      String.join ((Text.splitAt '\n' cause.toList).map fun l => "    " ++ String.ofList l ++ "\n")
    s!"Error: {message}\n\nCaused by:\n" ++ String.join (causes.map indent)

def fails (chain : List String) (output : Bytes) : Outcome :=
  ⟨1, output, report chain⟩

def succeeds (output : Bytes) : Outcome :=
  ⟨0, output, ""⟩

def readTemplate (path : String) : Site.Reading (Except (List String) Template.Document) := do
  match ← Site.Reading.text path with
  | .error e => return .error [s!"failed to read {path}", e.message]
  | .ok source =>
    match Template.parse source with
    | .error e => return .error [s!"failed to parse {path}", e.message]
    | .ok d => return .ok d

def renderDocument (bounds : Bounds) (path : String) (params : List (String × String))
    (d : Template.Document) : Result :=
  let start := Exchange.start .unlimited (.ofList params) .empty [] none
  match d.render bounds.iterations start with
  | .error .cutOff _ => .cutOff
  | .error (.failed e) ex =>
    .ended (fails [s!"failed to render {path}", e.message] ex.sink.received)
  | .ok () ex =>
    match Exchange.finish ex with
    | .error e ex => .ended (fails [e.message] ex.sink.received)
    | .ok () ex => .ended (succeeds ex.sink.received)

def display (json : Bool) (d : Template.Document) : String :=
  if json then d.outline.text ++ "\n" else d.source

/-- Runs a command. The files below the document root are not read here. -/
def Command.run (bounds : Bounds) : Command → Site.Reading Result
  | .serve path => do
    let loaded ← ExceptT.run do
      let config ← ServerConfig.load path
      let site ← config.loadSite .empty
      return (config, site)
    match loaded with
    | .error e => return .ended (fails e.chain [])
    | .ok (config, site) => return .serving config site
  | .render path params => do
    match ← readTemplate path with
    | .error chain => return .ended (fails chain [])
    | .ok d => return renderDocument bounds path params d
  | .tree path json => do
    match ← readTemplate path with
    | .error chain => return .ended (fails chain [])
    | .ok d => return .ended (succeeds (Text.utf8Bytes (display json d)))

def run (bounds : Bounds) (arguments : List String) : Site.Reading Result :=
  match parse arguments with
  | .error misuse => return .ended ⟨2, [], Text.unstyled misuse.report⟩
  | .ok (.explain text) => return .ended (succeeds (Text.utf8Bytes text))
  | .ok (.run c) => c.run bounds

end PageServer.CommandLine
