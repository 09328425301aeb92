import PatternAlgebra.Matching.Basic
import PatternAlgebra.Outline.Breakdown
import PatternAlgebra.Outline.Diagram
import PatternAlgebra.Pattern.RangeSpec
import PatternAlgebra.Regex.FirstOutcome
import PatternAlgebra.Report.Basic
import PatternAlgebra.Proofs.CountText
import PatternAlgebra.Proofs.Groups
import PatternAlgebra.Proofs.Lexing
import PatternAlgebra.Proofs.Lowering
import PatternAlgebra.Proofs.Braces
import PatternAlgebra.Proofs.Items
import PatternAlgebra.Proofs.Tokens
import PatternAlgebra.Proofs.Parsing
import PatternAlgebra.Proofs.Compilation
import PatternAlgebra.Proofs.Captures
import PatternAlgebra.Proofs.Tree
import PatternAlgebra.Proofs.Decides
import PatternAlgebra.Proofs.Meaning
import PatternAlgebra.Proofs.Matching
import PatternAlgebra.Proofs.Captured
import PatternAlgebra.Proofs.Renumber
import PatternAlgebra.Proofs.Slice
import PatternAlgebra.Proofs.InnerGroups
import PatternAlgebra.Proofs.Soundness
import PatternAlgebra.Proofs.Extension
import PatternAlgebra.Proofs.Agreement
import PatternAlgebra.Proofs.Keys
import PatternAlgebra.Proofs.Anchoring
import PatternAlgebra.Proofs.Dangling
import PatternAlgebra.Proofs.CountedOn
import PatternAlgebra.Proofs.Enclosing
import PatternAlgebra.Proofs.Shortcut
import PatternAlgebra.Proofs.Repetition
import PatternAlgebra.Proofs.CountsRead
import PatternAlgebra.Proofs.Leaves
import PatternAlgebra.Proofs.PatternLeaves
import PatternAlgebra.Proofs.Lines
import PatternAlgebra.Proofs.CaseBlind
import PatternAlgebra.Proofs.CaseWidening
import PatternAlgebra.Proofs.Refusals
import PatternAlgebra.Proofs.Acceptance
import PatternAlgebra.Proofs.Bare
import PatternAlgebra.Proofs.Choices
import PatternAlgebra.Proofs.Classes
import PatternAlgebra.Proofs.RangeListing
import PatternAlgebra.Proofs.Runs
import PatternAlgebra.Proofs.NestedLoops
import PatternAlgebra.Proofs.Carrying
import PatternAlgebra.Proofs.Echo
import PatternAlgebra.Proofs.FoundNames
import PatternAlgebra.Proofs.Pieces
import PatternAlgebra.Proofs.CaseTables
import PatternAlgebra.Proofs.Connection
