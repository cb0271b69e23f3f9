import Parsing.Record
import Parsing.Text.Quoted

/-!
Settings documents: named numbers and texts, in order, and their printed form of one line each.
-/

namespace Parsing.Settings

inductive Scalar where
  | number (n : Nat)
  | text (t : Text)
deriving DecidableEq, Inhabited

/-- One line of a document, with the sign that stands between name and value. -/
structure Setting where
  name : Text
  sign : Char
  value : Scalar
deriving DecidableEq, Inhabited

abbrev Document := Record Text Scalar

def Scalar.printed : Scalar → Text
  | number n => Nat.toDigits 10 n
  | text t => t.quoted

/-- Each setting on a line of its own, as name, equals sign and value between single spaces. -/
def Document.printed (doc : Document) : Text :=
  doc.flatMap fun (name, value) => name ++ [' ', '=', ' '] ++ value.printed ++ ['\n']

end Parsing.Settings
