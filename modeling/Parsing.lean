import Parsing.Failure
import Parsing.Fault
import Parsing.Kind
import Parsing.Main
import Parsing.Nesting
import Parsing.Parser.Basic
import Parsing.Parser.Character
import Parsing.Parser.Combinators
import Parsing.Parser.Recursion
import Parsing.Position
import Parsing.Proofs.Alike
import Parsing.Proofs.Annotations
import Parsing.Proofs.Chain
import Parsing.Proofs.CharacterClasses
import Parsing.Proofs.Coherence
import Parsing.Proofs.Composition
import Parsing.Proofs.Consumption
import Parsing.Proofs.Counterparts
import Parsing.Proofs.Descent
import Parsing.Proofs.Faithful
import Parsing.Proofs.Fields
import Parsing.Proofs.Finalization
import Parsing.Proofs.Laws
import Parsing.Proofs.Lines
import Parsing.Proofs.Locality
import Parsing.Proofs.Loops
import Parsing.Proofs.Ordering
import Parsing.Proofs.Outcomes
import Parsing.Proofs.OverrideLog
import Parsing.Proofs.Overrides
import Parsing.Proofs.Parentheses
import Parsing.Proofs.Placement
import Parsing.Proofs.Products
import Parsing.Proofs.Quotation
import Parsing.Proofs.Reanchoring
import Parsing.Proofs.Records
import Parsing.Proofs.Rendering
import Parsing.Proofs.Replies
import Parsing.Proofs.Scope
import Parsing.Proofs.Sequencing
import Parsing.Proofs.Settings.Acceptance
import Parsing.Proofs.Settings.Documents
import Parsing.Proofs.Settings.FailureSite
import Parsing.Proofs.Settings.Faults
import Parsing.Proofs.Settings.Language
import Parsing.Proofs.Settings.Normalization
import Parsing.Proofs.Settings.Passes
import Parsing.Proofs.Settings.Printing
import Parsing.Proofs.Settings.Reading
import Parsing.Proofs.Settings.Scanner
import Parsing.Proofs.Settings.Spacing
import Parsing.Proofs.Settings.Tokens
import Parsing.Proofs.Spelling
import Parsing.Proofs.Stacks
import Parsing.Proofs.Successes
import Parsing.Proofs.Templates
import Parsing.Proofs.Transformation
import Parsing.Proofs.Unrolling
import Parsing.Proofs.Waiting
import Parsing.Record
import Parsing.Run
import Parsing.Script
import Parsing.Settings.Document
import Parsing.Settings.Grammar
import Parsing.Settings.Report
import Parsing.State
import Parsing.Text.Basic
import Parsing.Text.Letter
import Parsing.Text.Numeral
import Parsing.Text.Printable
import Parsing.Text.Quoted
import Parsing.Text.Ranges
import Parsing.Text.Repeated
import Parsing.Text.Space
import Parsing.Value
