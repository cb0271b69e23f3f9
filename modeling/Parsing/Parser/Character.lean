import Parsing.Parser.Combinators

/-!
Recognizers of characters and texts. Each reports what it took, so that the input and the position
stay in step.
-/

namespace Parsing

namespace Parser

variable {ω : Type}

private def unexpectedEnd : String := "unexpected end of input"

/-- Takes the next character if it has the property. The property is a plain function: unlike the
functions that the combinators call, it neither records anything nor raises a fault. -/
def satisfy (property : Char → Bool) (description : String) : Parser ω Char where
  parse s :=
    match s.input with
    | [] => return .failure ⟨unexpectedEnd, [description], s.pos⟩
    | c :: _ =>
      if property c then succeed c s [c]
      else return .failure ⟨"unexpected " ++ quote [c], [description], s.pos⟩
  label := description

/-- Takes the character that makes up all of `unit`; none does unless `unit` is one character. -/
def symbol (unit : Text) : Parser ω Char := satisfy (fun c => [c] = unit) (quote unit)

def anyChar : Parser ω Char := satisfy (fun _ => true) "any character"

/-- Takes exactly the given text, or fails where it starts. -/
def text (t : Text) : Parser ω Text where
  parse s :=
    if t.isPrefixOf s.input then succeed t s t
    else
      let found := s.input.take t.length
      let message := if found = [] then unexpectedEnd else "unexpected " ++ quote found
      return .failure ⟨message, [quote t], s.pos⟩
  label := quote t

/-- Takes the longest run of characters with the property, which may be empty. The property is a
plain function, as that of `satisfy` is. -/
def span (property : Char → Bool) : Parser ω Text where
  parse s :=
    let taken := s.input.takeWhile property
    succeed taken s taken

/-- Gives what remains of the input and takes nothing. -/
def remaining : Parser ω Text where
  parse s := return .success s.input s

/-- Gives the position and takes nothing. -/
def position : Parser ω Position where
  parse s := return .success s.pos s

end Parser

end Parsing
