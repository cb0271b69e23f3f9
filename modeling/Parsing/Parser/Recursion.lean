import Parsing.Parser.Combinators

/-!
Recursive grammars. The rules of a grammar are given as parsers that may refer to one another, and a
reference is a deferred parser. Every descent through a reference is counted; a grammar that takes
input between any rule and the next reference never descends deeper than its input is long.
-/

namespace Parsing

/-- The rules of a grammar, indexed by name, in terms of the references to them. -/
abbrev Rules (ω : Type) {ι : Type} (α : ι → Type) :=
  ((i : ι) → Parser ω (α i)) → (i : ι) → Parser ω (α i)

namespace Rules

variable {ω ι : Type} {α : ι → Type}

/-- The parser of a rule that allows for the given number of nested references. -/
def within (rules : Rules ω α) : Nat → (i : ι) → Parser ω (α i)
  | 0, _ => { parse := fun _ => Run.raise .exhausted }
  | depth + 1, i => rules (fun j => .defer (return rules.within depth j)) i

/-- The parser of a rule, with one nested reference for each character of its input. -/
def parser (rules : Rules ω α) (i : ι) : Parser ω (α i) :=
  { rules.within 1 i with parse := fun s => (rules.within (s.input.length + 1) i).parse s }

end Rules

end Parsing
