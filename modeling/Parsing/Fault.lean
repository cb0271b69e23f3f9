import Parsing.Kind
import Parsing.Position
import Parsing.Text.Quoted

/-!
Faults: what stops a run for good, as against a parse failure, which is an answer. A fault is a
mistake in the grammar or in one of its callbacks and no combinator recovers from it.
-/

namespace Parsing

inductive Fault where
  /-- A recognizer claims to have taken a text that the input does not start with. -/
  | notAtFront (taken : Text) (pos : Position)
  /-- The state to go on from is no suffix of the state it is to come from. -/
  | unreachable (target source : Position)
  /-- A script waits for something that is no parser. -/
  | strayStep (kind : Kind)
  /-- A record field is given neither a parser nor a way to compute one. -/
  | strayField (kind : Kind)
  /-- The way to compute a field's parser gives something else. -/
  | strayChoice (key : String) (kind : Kind)
  /-- A case analysis meets something other than its two sides. -/
  | noSide (kind : Kind)
  /-- A callback raises a fault of its own. -/
  | callback (message : String)
  /-- Something that is no parser is run. -/
  | notParser
  /-- A field is stored in something that is no record. -/
  | notRecord
  /-- A number is read from digits outside decimal notation. -/
  | notDecimal
  /-- An index points before the first of the items it counts. -/
  | outOfBounds
  /-- A number of repetitions is no machine word. -/
  | countOutOfRange
  /-- A text would be too long for the memory. -/
  | outOfMemory
  /-- A bounded repetition or descent has used up its bound. -/
  | exhausted
deriving DecidableEq, Inhabited

namespace Fault

/-- The text of a fault, for those that come with one. -/
def message : Fault → Option String
  | notAtFront taken pos =>
    some ("Cannot consume " ++ quote taken ++ " at " ++ pos.describe ++
      ": input does not start with it")
  | unreachable target source =>
    some ("State at " ++ target.describe ++ " is not reachable from " ++ source.describe ++
      " by consuming input")
  | strayStep kind => some ("Expected a Parsec to be yielded, got " ++ kind.name)
  | strayField kind => some ("bind expects a Parsec or a callable, got " ++ kind.name)
  | strayChoice key kind =>
    some ("bind field " ++ quote key.toList ++ ": expected a Parsec, got " ++ kind.name)
  | noSide kind => some ("Expected Left or Right, got " ++ kind.name)
  | callback text => some text
  | notParser => none
  | notRecord => none
  | notDecimal => none
  | outOfBounds => none
  | countOutOfRange => none
  | outOfMemory => none
  | exhausted => none

end Fault

end Parsing
