import Parsing.Text.Basic
import Parsing.Text.Printable

/-!
The quoted form of a text. Single quotes delimit it, unless it holds a single quote and no double
quote. The delimiter and the backslash are written after a backslash, and every character that is
not printable as a short escape or as a code point of two, four or eight hexadecimal digits.
-/

namespace Parsing

namespace Text

/-- The quote that a text is written in. -/
def delimiter (t : Text) : Char :=
  if '\'' ∈ t ∧ '"' ∉ t then '"' else '\''

/-- The last `width` hexadecimal digits of a number, in lower case. -/
def hexDigits : Nat → Nat → Text
  | 0, _ => []
  | width + 1, n => hexDigits width (n / 16) ++ [Nat.digitChar (n % 16)]

/-- A code point in the shortest of the three widths that holds it. -/
def codePointEscape (c : Char) : Text :=
  if c.toNat < 0x100 then '\\' :: 'x' :: hexDigits 2 c.toNat
  else if c.toNat < 0x10000 then '\\' :: 'u' :: hexDigits 4 c.toNat
  else '\\' :: 'U' :: hexDigits 8 c.toNat

/-- How one character stands between quotes. -/
def escape (quote c : Char) : Text :=
  if c = quote ∨ c = '\\' then ['\\', c]
  else if c = '\n' then ['\\', 'n']
  else if c = '\r' then ['\\', 'r']
  else if c = '\t' then ['\\', 't']
  else if isPrintable c then [c]
  else codePointEscape c

def quoted (t : Text) : Text :=
  t.delimiter :: t.flatMap (escape t.delimiter) ++ [t.delimiter]

end Text

/-- The quoted form of a text, for use in a message. -/
def quote (t : Text) : String := String.ofList t.quoted

end Parsing
