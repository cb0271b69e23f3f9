/-!
A text is the list of its characters, so that a suffix of the input shares its memory with the
whole. Lines are divided by the newline character alone; the other ends of lines that a file may
have are made newlines when it is read.
-/

namespace Parsing

abbrev Text := List Char

namespace Text

/-- The pieces between newlines: one more than there are newlines, so never none. -/
def lines : Text → List Text
  | [] => [[]]
  | c :: rest =>
    if c = '\n' then [] :: lines rest
    else
      match lines rest with
      | [] => [[c]]
      | line :: others => (c :: line) :: others

/-- What stands after the last newline; the whole text if it has none. -/
def lastLine (t : Text) : Text :=
  (t.reverse.takeWhile (· ≠ '\n')).reverse

/-- A text as it is read from a file: a carriage return is a newline, and one with the newline that
follows it. -/
def translated : Text → Text
  | [] => []
  | '\r' :: '\n' :: rest => '\n' :: translated rest
  | '\r' :: rest => '\n' :: translated rest
  | c :: rest => c :: translated rest

end Text

end Parsing
