import RecordSchema.BitReader
import RecordSchema.CommandLine
import RecordSchema.Cursor
import RecordSchema.Diagnostic
import RecordSchema.Event
import RecordSchema.Fault
import RecordSchema.Grammar
import RecordSchema.Lookahead
import RecordSchema.Main
import RecordSchema.Parser.Basic
import RecordSchema.Parser.Condition
import RecordSchema.Parser.Declaration
import RecordSchema.Parser.Node
import RecordSchema.Parser.Reference
import RecordSchema.Parser.Rules
import RecordSchema.Report
import RecordSchema.Schema.Basic
import RecordSchema.Schema.Condition
import RecordSchema.Schema.Rendering
import RecordSchema.Scope
import RecordSchema.SourceId
import RecordSchema.Text.Blank
import RecordSchema.Text.CombiningClass
import RecordSchema.Text.Decimal
import RecordSchema.Text.Decomposition
import RecordSchema.Text.Measure
import RecordSchema.Text.Normalization
import RecordSchema.Token
import RecordSchema.Token.Gap
import RecordSchema.Token.Lexeme
import RecordSchema.Token.Spelling
import RecordSchema.Workspace
import RecordSchema.Proofs.Grammar
import RecordSchema.Proofs.Tokens
import RecordSchema.Proofs.WellFormed
import RecordSchema.Proofs.Names
import RecordSchema.Proofs.Reading
import RecordSchema.Proofs.Repetition
import RecordSchema.Proofs.Soundness.Condition
import RecordSchema.Proofs.Soundness.Reference
import RecordSchema.Proofs.Soundness.Declaration
import RecordSchema.Proofs.Soundness
import RecordSchema.Proofs.Completeness.Condition
import RecordSchema.Proofs.Completeness.Reference
import RecordSchema.Proofs.Completeness.Declaration
import RecordSchema.Proofs.Completeness
import RecordSchema.Proofs.Registry
import RecordSchema.Proofs.Resolution
import RecordSchema.Proofs.Scoping
import RecordSchema.Proofs.Spelling
import RecordSchema.Proofs.Words
import RecordSchema.Proofs.Rendering
import RecordSchema.Proofs.Placement
import RecordSchema.Proofs.Refusal.Basic
import RecordSchema.Proofs.Refusal.Member
import RecordSchema.Proofs.Refusal.Declaration
import RecordSchema.Proofs.Refusal.Location
import RecordSchema.Proofs.Refusal
import RecordSchema.Proofs.Faults
import RecordSchema.Proofs.Gaps
import RecordSchema.Proofs.Tokenisation
import RecordSchema.Proofs.Relocation.Basic
import RecordSchema.Proofs.Erasure
import RecordSchema.Proofs.Unambiguity.Words
import RecordSchema.Proofs.Unambiguity.Member
import RecordSchema.Proofs.Unambiguity
import RecordSchema.Proofs.Reparsing.Layout
import RecordSchema.Proofs.Reparsing.Heading
import RecordSchema.Proofs.Reparsing.Unbraced
import RecordSchema.Proofs.Reparsing
import RecordSchema.Proofs.Relocation.Lockstep
import RecordSchema.Proofs.Relocation.Rules
import RecordSchema.Proofs.Relocation
import RecordSchema.Proofs.Appending.Tokens
import RecordSchema.Proofs.Appending.Runs
import RecordSchema.Proofs.Appending.Rules
import RecordSchema.Proofs.Appending
import RecordSchema.Proofs.BitStream
import RecordSchema.Proofs.Sources
import RecordSchema.Proofs.Workspace
import RecordSchema.Proofs.Session
import RecordSchema.Proofs.Log.Comments
import RecordSchema.Proofs.Log.Derivation
import RecordSchema.Proofs.Log.Basic
import RecordSchema.Proofs.Log.Printing
import RecordSchema.Proofs.Log.Rules
import RecordSchema.Proofs.Log
import RecordSchema.Proofs.Steps
import RecordSchema.Proofs.Positions
import RecordSchema.Proofs.LongestMatch
import RecordSchema.Proofs.Depth
import RecordSchema.Proofs.Nesting.Levels
import RecordSchema.Proofs.Nesting.Ungrouped
import RecordSchema.Proofs.Nesting.Refusal
import RecordSchema.Proofs.Nesting
import RecordSchema.Proofs.Suggestions.Runs
import RecordSchema.Proofs.Suggestions.Rules
import RecordSchema.Proofs.Suggestions
import RecordSchema.Proofs.InternalFaults
import RecordSchema.Proofs.Diagnostics
import RecordSchema.Proofs.Contents
import RecordSchema.Proofs.Defaults
import RecordSchema.Proofs.Structure
import RecordSchema.Proofs.Numerals.Unnumbered
import RecordSchema.Proofs.Numerals.Respelling
import RecordSchema.Proofs.Stumbling.Runs
import RecordSchema.Proofs.Stumbling.Rules
import RecordSchema.Proofs.Stumbling
import RecordSchema.Proofs.Numerals.Digits
import RecordSchema.Proofs.Numerals.Replacement
import RecordSchema.Proofs.Numerals
import RecordSchema.Proofs.Lookahead
import RecordSchema.Proofs.Progress.Runs
import RecordSchema.Proofs.Progress.Levels
import RecordSchema.Proofs.Progress
