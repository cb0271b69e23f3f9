import Parsing.Text.Ranges

/-!
White space: the separators of category Zs and the characters whose bidirectional class is white
space, paragraph separator or segment separator, in Unicode 14.
-/

namespace Parsing

def spaceRanges : Ranges :=
  [(0x9, 0xd), (0x1c, 0x20), (0x85, 0x85), (0xa0, 0xa0), (0x1680, 0x1680), (0x2000, 0x200a),
   (0x2028, 0x2029), (0x202f, 0x202f), (0x205f, 0x205f), (0x3000, 0x3000)]

def isSpace (c : Char) : Bool := spaceRanges.contains c.toNat

end Parsing
