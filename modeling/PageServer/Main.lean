import PageServer.CommandLine.Run

/-!
# The program

Carries out a command line on real files. Listening for connections is left to
the system that the program is part of.
-/

namespace PageServer

def Site.ReadError.ofSystem : IO.Error → Site.ReadError
  | .noFileOrDirectory .. => .noSuchFile
  | .inappropriateType _ 21 _ => .isADirectory
  | .inappropriateType .. => .notADirectory
  | .invalidArgument _ 36 _ => .nameTooLong
  | e => .refused e.toString

def Site.Reading.runOnFiles {α : Type} : Site.Reading α → IO α
  | .done a => pure a
  | .read path next => do
    let content ← match Site.pathFault? path with
      | some e => pure (Except.error e)
      | none =>
        try
          let content ← IO.FS.readBinFile path
          pure (Except.ok content.toList)
        catch e => pure (Except.error (Site.ReadError.ofSystem e))
    (next content).runOnFiles

/-- Bounds that no template is meant to reach. -/
def CommandLine.bounds : Bounds := ⟨Nat.pow 2 62, 16⟩

/-- How a command ends when there is nothing that listens for it. -/
def CommandLine.Result.outcome : CommandLine.Result → CommandLine.Outcome
  | .ended o => o
  | .serving config _ =>
    CommandLine.fails [s!"failed to bind {config.socketAddress}", "no listener available"] []
  | .cutOff => CommandLine.fails ["a loop does not end"] []

end PageServer

open PageServer in
def main (arguments : List String) : IO UInt32 := do
  let result ← (CommandLine.run CommandLine.bounds arguments).runOnFiles
  let o := result.outcome
  (← IO.getStdout).write ⟨o.output.toArray⟩
  (← IO.getStderr).putStr o.errors
  return UInt32.ofNat o.exitCode
