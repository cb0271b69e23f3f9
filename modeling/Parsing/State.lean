import Parsing.Fault

/-!
The state of a parse: the input that remains and where it starts. Both move together, and only by
taking a text off the front.
-/

namespace Parsing

structure State where
  input : Text
  pos : Position := {}
deriving DecidableEq, Inhabited

namespace State

def ofText (source : Text) : State := { input := source }

/-- The state after a text has been taken off the front. Taking nothing is always possible. -/
def consume (s : State) (taken : Text) : Except Fault State :=
  if taken = [] then .ok s
  else if taken.isPrefixOf s.input then
    .ok { input := s.input.drop taken.length, pos := s.pos.advance taken }
  else .error (.notAtFront taken s.pos)

/-- Goes from `s` to the input of `target` by consuming what lies between, whatever position
`target` claims for itself. -/
def reanchor (s target : State) : Except Fault State :=
  if target.input.isSuffixOf s.input then
    s.consume (s.input.take (s.input.length - target.input.length))
  else .error (.unreachable target.pos s.pos)

end State

end Parsing
