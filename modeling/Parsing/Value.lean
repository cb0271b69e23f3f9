import Parsing.Parser.Basic
import Parsing.Record

/-!
Values of no fixed type, for grammars that are themselves data: the plain values, the two sides of a
choice, and the library's own positions, states, failures and parsers. `π` is whatever stands for a
parser. Each value has a kind and a literal form.
-/

namespace Parsing

inductive Value (π : Type) where
  | null
  | bool (b : Bool)
  | int (n : Int)
  | text (t : Text)
  | list (items : List (Value π))
  | tuple (items : List (Value π))
  | record (fields : List (String × Value π))
  | left (payload : Value π)
  | right (payload : Value π)
  | position (p : Position)
  | state (s : State)
  | failure (e : Failure)
  | parser (p : π)

def Position.literal (p : Position) : String :=
  "SourcePos(line=" ++ toString p.line ++ ", column=" ++ toString p.column ++ ", offset=" ++
    toString p.offset ++ ")"

def State.literal (s : State) : String :=
  "State(input=" ++ quote s.input ++ ", pos=" ++ s.pos.literal ++ ")"

/-- Items between parentheses. A single item is followed by a comma, which tells it from a mere
parenthesis. -/
def tupleLiteral : List String → String
  | [item] => "(" ++ item ++ ",)"
  | items => "(" ++ ", ".intercalate items ++ ")"

def Failure.literal (e : Failure) : String :=
  "ParseError(message=" ++ quote e.message.toList ++ ", expected=" ++
    tupleLiteral (e.expected.map fun name => quote name.toList) ++ ", pos=" ++ e.pos.literal ++ ")"

namespace Value

variable {π ω β : Type}

instance : Inhabited (Value π) := ⟨null⟩

def kind : Value π → Kind
  | null => .null
  | bool _ => .bool
  | int _ => .int
  | text _ => .text
  | list _ => .list
  | tuple _ => .tuple
  | record _ => .record
  | left _ => .left
  | right _ => .right
  | position _ => .position
  | state _ => .state
  | failure _ => .failure
  | parser _ => .parser

mutual

/-- The literal form, given how a parser is written. -/
def literal (describe : π → String) : Value π → String
  | null => "None"
  | bool true => "True"
  | bool false => "False"
  | int n => toString n
  | text t => quote t
  | list items => "[" ++ ", ".intercalate (literals describe items) ++ "]"
  | tuple items => tupleLiteral (literals describe items)
  | record fields => "\x7b" ++ ", ".intercalate (fieldLiterals describe fields) ++ "\x7d"
  | left payload => "Left(" ++ payload.literal describe ++ ")"
  | right payload => "Right(" ++ payload.literal describe ++ ")"
  | position p => p.literal
  | state s => s.literal
  | failure e => e.literal
  | parser p => describe p

def literals (describe : π → String) : List (Value π) → List String
  | [] => []
  | v :: rest => v.literal describe :: literals describe rest

def fieldLiterals (describe : π → String) : List (String × Value π) → List String
  | [] => []
  | (key, v) :: rest =>
    (quote key.toList ++ ": " ++ v.literal describe) :: fieldLiterals describe rest

end

mutual

/-- Whether two values agree in kind and content. The order of a record's fields does not count, and
no two parsers agree. -/
def agrees : Value π → Value π → Bool
  | null, null => true
  | bool a, bool b => a == b
  | int a, int b => a == b
  | text a, text b => a == b
  | list a, list b => allAgree a b
  | tuple a, tuple b => allAgree a b
  | record a, record b => a.length == b.length && fieldsAgree a b
  | left a, left b => a.agrees b
  | right a, right b => a.agrees b
  | position a, position b => a == b
  | state a, state b => a == b
  | failure a, failure b => a == b
  | _, _ => false

def allAgree : List (Value π) → List (Value π) → Bool
  | [], [] => true
  | a :: as, b :: bs => a.agrees b && allAgree as bs
  | _, _ => false

def fieldsAgree : List (String × Value π) → List (String × Value π) → Bool
  | [], _ => true
  | (key, a) :: rest, fields =>
    (match Record.get? key fields with
      | some b => a.agrees b
      | none => false) && fieldsAgree rest fields

end

/-- Case analysis on the two sides of a choice: runs the one for the side that is there. -/
def choose (v : Value π) (onLeft onRight : Value π → Run ω β) : Run ω β :=
  match v with
  | left payload => onLeft payload
  | right payload => onRight payload
  | other => Run.raise (.noSide other.kind)

/-- Stores a field, if the value is a record. -/
def withField (v : Value π) (key : String) (field : Value π) : Run ω (Value π) :=
  match v with
  | record fields => return record (Record.put key field fields)
  | _ => Run.raise .notRecord

end Value

end Parsing
