import Parsing.Settings.Grammar

/-!
What the command line reports on a source: the printed document, or the rendered failure.
-/

namespace Parsing.Settings

structure Report where
  output : String
  exitCode : Nat
deriving DecidableEq, Inhabited

def Report.ofOutcome (source : Text) : Except Failure Document → Except Fault Report
  | .ok doc => .ok ⟨String.ofList doc.printed, 0⟩
  | .error e => do return ⟨(← e.render source) ++ "\n", 1⟩

def report {ω : Type} (source : Text) : Run ω Report := do
  Run.ofExcept (Report.ofOutcome source (← document.evaluate source))

end Parsing.Settings
