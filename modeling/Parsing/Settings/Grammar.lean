import Parsing.Parser.Character
import Parsing.Script
import Parsing.Settings.Document
import Parsing.Text.Numeral
import Parsing.Text.Space

/-!
The grammar of settings documents. A setting is a name, an equals sign and a value, with spaces and
tabs after each of the three; white space of any kind may stand before, between and after settings.
A value is a run of digits, or a text between double quotes on one line. A name may be set once.
-/

namespace Parsing.Settings

open Parsing.Parser Parsing.Script

variable {ω α : Type}

def isBlank (c : Char) : Bool := c = ' ' || c = '\t'

def isNameStart (c : Char) : Bool := isLetter c || c = '_'

def isNameRest (c : Char) : Bool := isAlphanumeric c || c = '_'

def isValueStart (c : Char) : Bool := c = '"' || isDigit c

def isTextBody (c : Char) : Bool := c ≠ '"' && c ≠ '\n'

def blanks : Parser ω Text := (span isBlank).named "blanks"

def blankLines : Parser ω Text := (span isSpace).named "blank lines"

def identifierScript : Script ω Unit (Ending ω Text) := do
  let first ← step (satisfy isNameStart "identifier")
  let rest ← step ((span isNameRest).named "identifier")
  return .value (first :: rest)

def identifier : Parser ω Text := (ofScript identifierScript ()).named "identifier"

/-- The number that the digits write, if all of them are decimal. -/
def numberOf (digits : Text) : Run ω Scalar :=
  match readDecimal digits with
  | some n => return .number n
  | none => Run.raise .notDecimal

def valueScript : Script ω Unit (Ending ω Scalar) := do
  let first ← step (satisfy isValueStart "value")
  if first = '"' then
    let body ← step ((span isTextBody).named "string body")
    let _ ← step ((symbol ['"']).withMessage "unterminated string")
    return .value (.text body)
  else
    let rest ← step ((span isDigit).named "digits")
    return .value (← perform (numberOf (first :: rest)))

def value : Parser ω Scalar := (ofScript valueScript ()).named "value"

/-- A token and the blanks after it. -/
def lexeme (p : Parser ω α) : Parser ω α :=
  p.flatMap fun a => return blanks.map fun _ => return a

def equalsSign : Parser ω Char :=
  (lexeme (symbol ['='])).withMessage "expected '=' after setting name"

def setting : Parser ω Setting :=
  (result ()).extend "name" (always (lexeme identifier)) (fun _ name => return name)
    |>.extend "eq" (always equalsSign) (fun name sign => return (name, sign))
    |>.extend "value" (always (lexeme value)) (fun head value => return ⟨head.1, head.2, value⟩)

/-- Reads settings until no input remains, each pass one setting and the white space after it. -/
def settingsScript : Nat → Document → Script ω Unit (Ending ω Document)
  | 0, _ => perform (Run.raise .exhausted)
  | passes + 1, doc => do
    let rest ← step remaining
    if rest = [] then return .value doc
    else
      let entry ← step setting
      if entry.name ∈ doc.keys then
        return .parser (fail ("duplicate setting " ++ quote entry.name) [])
      else
        let _ ← step blankLines
        settingsScript passes (doc.put entry.name entry.value)

/-- A setting takes at least three characters, which bounds the number of passes. -/
def documentScript : Script ω Unit (Ending ω Document) := do
  let _ ← step blankLines
  let rest ← step remaining
  settingsScript (rest.length / 3 + 1) []

def document : Parser ω Document := (ofScript documentScript ()).named "settings"

end Parsing.Settings
