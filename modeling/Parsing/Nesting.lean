import Parsing.Parser.Character
import Parsing.Parser.Recursion
import Parsing.Script

/-!
Nested parentheses around the letter x, the smallest recursive grammar. Its value is the depth of
the nesting.
-/

namespace Parsing.Nesting

open Parsing.Parser Parsing.Script

variable {ω : Type}

def nestedScript (inner : Parser ω Nat) : Script ω Unit (Ending ω Nat) := do
  let c ← step anyChar
  if c = 'x' then return .value 0
  else if c = '(' then
    let depth ← step inner
    let _ ← step (symbol [')'])
    return .value (depth + 1)
  else return .parser (fail ("unexpected " ++ quote [c]) [quote ['('], quote ['x']])

def rules : Rules ω (fun _ : Unit => Nat) :=
  fun references _ => (ofScript (nestedScript (references ())) ()).named "nested"

def nested : Parser ω Nat := Rules.parser rules ()

end Parsing.Nesting
