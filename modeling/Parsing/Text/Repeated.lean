import Parsing.Fault

/-!
Repetition of a text, within the limits of a machine: a number of repetitions is a signed word of
64 bits, and a text has to fit into memory. What is no longer than a text already in memory is
always within the limits.
-/

namespace Parsing.Text

/-- The longest text that is made where none of its length is there. It stands for the memory of
the machine, which sets no such number itself: any bound would do. -/
def longest : Nat := 0x10000000

/-- The text so many times over, no times for a negative count. A text of length `room` is there
already. -/
def repeated (t : Text) (count : Int) (room : Nat) : Except Fault Text :=
  if count < -0x8000000000000000 ∨ (0x8000000000000000 ≤ count ∧ room < count) then
    .error .countOutOfRange
  else if t = [] then .ok []
  else if max room longest < count.toNat * t.length then .error .outOfMemory
  else .ok (List.replicate count.toNat t).flatten

end Parsing.Text
