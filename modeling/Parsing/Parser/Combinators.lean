import Parsing.Parser.Basic
import Parsing.Record

/-!
Parsers from parsers. Whatever follows a failure is not run. A combinator that carries the label of
its first parser on also puts that parser's recorded message in; `zip` does neither.
-/

namespace Parsing

namespace Parser

variable {ω α β γ ρ : Type}

/-- Succeeds with a value and takes nothing. -/
def result (value : α) : Parser ω α where
  parse s := return .success value s

/-- Fails wherever it is run. -/
def fail (message : String) (expected : List String) : Parser ω α where
  parse s := return .failure { message, expected, pos := s.pos }

/-- The record without fields, from which fields are added one by one. -/
def emptyRecord {κ : Type} : Parser ω (Record κ β) := result []

/-- Makes a parser anew whenever it is run. -/
def defer (make : Run ω (Parser ω α)) : Parser ω α where
  parse s := do (← make).parse s

/-- Logs the next thirty characters and where they start. -/
def trace (label : String) : Parser ω Unit where
  parse s := do
    Run.log (.traced label (s.input.take 30) s.pos)
    return .success () s

def named (p : Parser ω α) (label : String) : Parser ω α := { p with label := some label }

/-- Replaces the message of every failure, in the parse function and as the recorded message. -/
def withMessage (p : Parser ω α) (message : String) : Parser ω α where
  parse s := return (← p.parse s).reworded message
  label := p.label
  message := message

/-- Computes the message of a failure from the failure. -/
def withMessageFrom (p : Parser ω α) (f : Failure → Run ω String) : Parser ω α where
  parse s := do
    match ← p.parse s with
    | .success a rest => return .success a rest
    | .failure e => return .failure (e.reworded (← f e))
  label := p.label

def map (p : Parser ω α) (f : α → Run ω β) : Parser ω β where
  parse s := do
    (← p.reported s).andThen fun a rest => return .success (← f a) rest
  label := p.label

/-- Goes on with a parser that depends on the value. -/
def flatMap (p : Parser ω α) (f : α → Run ω (Parser ω β)) : Parser ω β where
  parse s := do
    (← p.reported s).andThen fun a rest => do (← f a).parse rest
  label := p.label

def zip (p : Parser ω α) (q : Parser ω β) : Parser ω (α × β) where
  parse s := do
    (← p.parse s).andThen fun a middle => do
      (← q.parse middle).andThen fun b rest => return .success (a, b) rest

/-- Changes value and state together. Of the new state only the input counts: it has to be a suffix
of the input there was, and the position follows from what was dropped. -/
def transform (p : Parser ω α) (f : α → State → Run ω (β × State)) : Parser ω β where
  parse s := do
    (← p.reported s).andThen fun a rest => do
      let (b, target) ← f a rest
      return .success b (← Run.ofExcept (rest.reanchor target))
  label := p.label

/-- Parses a field whose parser is chosen by what stands before it, and stores its value. -/
def extend (p : Parser ω ρ) (key : String) (choose : ρ → Run ω (Item ω β))
    (store : ρ → β → Run ω γ) : Parser ω γ where
  parse s := do
    (← p.reported s).andThen fun r middle => do
      match ← choose r with
      | .stray kind => Run.raise (.strayChoice key kind)
      | .parser q =>
        (← q.parse middle).andThen fun b rest => return .success (← store r b) rest
  label := p.label

/-- Chooses a parser whatever stands before it. -/
def always (p : Parser ω β) (_ : ρ) : Run ω (Item ω β) := return .parser p

/-- Parses a field of a record and puts it under its key. -/
def bind (p : Parser ω (Record String β)) (key : String)
    (choose : Record String β → Run ω (Item ω β)) : Parser ω (Record String β) :=
  p.extend key choose fun r b => return r.put key b

/-! The parse functions, for rewriting. -/

theorem parse_defer (make : Run ω (Parser ω α)) (s : State) :
    (defer make).parse s = (do (← make).parse s) := rfl

theorem parse_withMessage (p : Parser ω α) (message : String) (s : State) :
    (p.withMessage message).parse s = (do return (← p.parse s).reworded message) := rfl

theorem parse_map (p : Parser ω α) (f : α → Run ω β) (s : State) :
    (p.map f).parse s =
      (do (← p.reported s).andThen fun a rest => return .success (← f a) rest) := rfl

theorem parse_flatMap (p : Parser ω α) (f : α → Run ω (Parser ω β)) (s : State) :
    (p.flatMap f).parse s =
      (do (← p.reported s).andThen fun a rest => do (← f a).parse rest) := rfl

theorem parse_zip (p : Parser ω α) (q : Parser ω β) (s : State) :
    (p.zip q).parse s =
      (do
        (← p.parse s).andThen fun a middle => do
          (← q.parse middle).andThen fun b rest => return .success (a, b) rest) := rfl

end Parser

/-- How a field is given: a parser fixed beforehand, or a choice that depends on the record. -/
inductive Field (ω ρ β : Type) where
  | fixed (item : Item ω β)
  | chosen (choose : ρ → Run ω (Item ω β))

namespace Field

variable {ω ρ β : Type}

/-- A field fixed to something that is no parser is refused before anything is run. -/
def choice : Field ω ρ β → Except Fault (ρ → Run ω (Item ω β))
  | fixed (.parser p) => .ok p.always
  | fixed (.stray kind) => .error (.strayField kind)
  | chosen choose => .ok choose

end Field

end Parsing
