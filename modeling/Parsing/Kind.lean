/-!
The kinds of value that a grammar can meet where it needs a parser or a case, and the names that
messages give them.
-/

namespace Parsing

inductive Kind where
  | null
  | bool
  | int
  | text
  | list
  | tuple
  | record
  | left
  | right
  | position
  | state
  | failure
  | parser
deriving DecidableEq, Inhabited

namespace Kind

def name : Kind → String
  | null => "NoneType"
  | bool => "bool"
  | int => "int"
  | text => "str"
  | list => "list"
  | tuple => "tuple"
  | record => "dict"
  | left => "Left"
  | right => "Right"
  | position => "SourcePos"
  | state => "State"
  | failure => "ParseError"
  | parser => "Parsec"

end Kind

end Parsing
