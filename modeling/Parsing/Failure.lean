import Parsing.Text.Repeated

/-!
Parse failures: a message, what would have been accepted instead, and where. A failure is printed on
one line, or rendered with the source line it points into and a caret under the column. A position
that no source has can be out of reach of that.
-/

namespace Parsing

structure Failure where
  message : String
  expected : List String := []
  pos : Position := {}
deriving DecidableEq, Inhabited

namespace Failure

/-- The failure with the given message in place of its own, if one is given. -/
def reworded (e : Failure) (message : Option String) : Failure :=
  { e with message := message.getD e.message }

def describe (e : Failure) : String :=
  "Parse error at " ++ e.pos.describe ++ ": " ++ e.message ++
    if e.expected = [] then "" else " (expected " ++ ", ".intercalate e.expected ++ ")"

/-- The line of the given number, counted from 1; number 0 and below count back from the last line,
and a number past the end gives an empty line. -/
def sourceLine (source : Text) (number : Int) : Except Fault Text :=
  let lines := source.lines
  let index := if number ≤ 0 then number - 1 + lines.length else number - 1
  if index < 0 then .error .outOfBounds else .ok (lines.getD index.toNat [])

/-- The failure over the line it points into, with a caret under the column. -/
def render (e : Failure) (source : Text) : Except Fault String := do
  let line ← sourceLine source e.pos.line
  let margin ← Text.repeated [' '] (e.pos.column - 1) source.length
  return e.describe ++ "\n" ++ String.ofList line ++ "\n" ++ String.ofList margin ++ "^"

end Failure

end Parsing
