import Parsing.Run
import Parsing.State
import Parsing.Failure

/-!
Parsers: functions from a state to a reply, with a label for messages and, for some, a recorded
message that stands in for the one of any failure. The recorded message is not part of the parse
function. It is put in where the reply is reported: by `answer`, and by the combinators that look at
what their first parser replied before going on.
-/

namespace Parsing

inductive Reply (α : Type) where
  | success (value : α) (rest : State)
  | failure (error : Failure)
deriving DecidableEq

namespace Reply

variable {ω α β : Type}

instance : Inhabited (Reply α) := ⟨.failure default⟩

/-- The reply with another message for its failure, if it is one and a message is given. -/
def reworded (message : Option String) : Reply α → Reply α
  | success a rest => success a rest
  | failure e => failure (e.reworded message)

/-- Goes on from a success and passes a failure through. -/
def andThen (reply : Reply α) (k : α → State → Run ω (Reply β)) : Run ω (Reply β) :=
  match reply with
  | success a rest => k a rest
  | failure e => return failure e

/-- What a caller keeps of a reply: the value or the failure. -/
def value? : Reply α → Except Failure α
  | success a _ => .ok a
  | failure e => .error e

end Reply

structure Parser (ω α : Type) where
  parse : State → Run ω (Reply α)
  label : Option String := none
  message : Option String := none

/-- What stands where a parser is wanted. -/
inductive Item (ω α : Type) where
  | parser (p : Parser ω α)
  | stray (kind : Kind)

instance {ω α : Type} : Inhabited (Item ω α) := ⟨.stray .null⟩

namespace Parser

variable {ω α : Type}

instance : Inhabited (Parser ω α) := ⟨{ parse := fun _ => default }⟩

/-- How messages refer to a parser. An empty label counts as none. -/
def describe (p : Parser ω α) : String :=
  match p.label with
  | none => "<Parsec>"
  | some label => if label = "" then "<Parsec>" else "<Parsec " ++ label ++ ">"

/-- The reply under the recorded message. -/
def reported (p : Parser ω α) (s : State) : Run ω (Reply α) := do
  return (← p.parse s).reworded p.message

/-- Success with a value after the taken text. -/
def succeed (value : α) (s : State) (taken : Text) : Run ω (Reply α) := do
  return .success value (← Run.ofExcept (s.consume taken))

/-- Parses a whole text from its start. A failure under a recorded message is logged with the
message that it had before. -/
def answer (p : Parser ω α) (source : Text) : Run ω (Reply α) := do
  match ← p.parse (.ofText source), p.message with
  | .failure e, some message =>
    Run.log (.reworded p.describe e.pos message e.message)
    return .failure (e.reworded message)
  | reply, _ => return reply

/-- The value or the failure of a whole text, without the final state. -/
def evaluate (p : Parser ω α) (source : Text) : Run ω (Except Failure α) :=
  return (← p.answer source).value?

end Parser

/-- Running what is no parser is a fault. -/
def Item.toParser {ω α : Type} : Item ω α → Parser ω α
  | parser p => p
  | stray _ => { parse := fun _ => Run.raise .notParser }

end Parsing
