import Parsing.Text.Basic

/-!
Positions in a text: a line, a column and an offset, advanced over a whole text at once or by one
unit at a time. Lines and columns count from 1 and the offset from 0, but any integers are allowed,
so that a parse may start in the middle of a larger text.
-/

namespace Parsing

structure Position where
  line : Int := 1
  column : Int := 1
  offset : Int := 0
deriving DecidableEq, Inhabited

namespace Position

/-- The position after one unit of text, however long. The newline alone starts a line; any other
unit fills one column. -/
def next (p : Position) (unit : Text) : Position :=
  if unit = ['\n'] then ⟨p.line + 1, 1, p.offset + 1⟩
  else ⟨p.line, p.column + 1, p.offset + 1⟩

/-- The position after a text. Past a newline the column no longer depends on the start. -/
def advance (p : Position) (t : Text) : Position :=
  if '\n' ∈ t then ⟨p.line + t.count '\n', t.lastLine.length + 1, p.offset + t.length⟩
  else ⟨p.line, p.column + t.length, p.offset + t.length⟩

def describe (p : Position) : String :=
  "line " ++ toString p.line ++ ", column " ++ toString p.column

end Position

end Parsing
