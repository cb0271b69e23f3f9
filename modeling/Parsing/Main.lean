import Parsing.Settings.Report

/-!
The command line: reads a settings document from the file named by the first argument, or from
standard input, with every end of line as a newline, and prints its settings or the failure.
-/

namespace Parsing

/-- All that standard input holds. -/
partial def readAll (input : IO.FS.Stream) (read : String) : IO String := do
  let line ← input.getLine
  if line = "" then return read else readAll input (read ++ line)

end Parsing

open Parsing

def main (args : List String) : IO UInt32 := do
  let source ←
    match args with
    | path :: _ => IO.FS.readFile path
    | [] => readAll (← IO.getStdin) ""
  let run : Run Empty Settings.Report := Settings.report (Text.translated source.toList)
  match run.outcome with
  | .ok report =>
    IO.print report.output
    return UInt32.ofNat report.exitCode
  | .error fault =>
    IO.eprintln (fault.message.getD "the settings cannot be read")
    return 1
