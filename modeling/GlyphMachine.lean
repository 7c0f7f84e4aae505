import GlyphMachine.Budget
import GlyphMachine.CommandLine.Arguments
import GlyphMachine.CommandLine.Options
import GlyphMachine.CommandLine.Process
import GlyphMachine.Console
import GlyphMachine.Editor
import GlyphMachine.Engine
import GlyphMachine.Expectation
import GlyphMachine.Glyph
import GlyphMachine.Instruction
import GlyphMachine.Invocation
import GlyphMachine.Journal
import GlyphMachine.Machine
import GlyphMachine.Machine.Output
import GlyphMachine.Machine.Run
import GlyphMachine.Machine.Stack
import GlyphMachine.Main
import GlyphMachine.Plan
import GlyphMachine.Plan.Perform
import GlyphMachine.Program
import GlyphMachine.Program.Assembly
import GlyphMachine.Program.Parse
import GlyphMachine.Results
import GlyphMachine.Span
import GlyphMachine.SyntaxErrors
import GlyphMachine.SyntaxErrors.Report
import GlyphMachine.SyntaxErrors.Snippet
import GlyphMachine.Text.Blank
import GlyphMachine.Text.BreakClass
import GlyphMachine.Text.Bytes
import GlyphMachine.Text.Cluster
import GlyphMachine.Text.CodeRanges
import GlyphMachine.Text.Decimal
import GlyphMachine.Text.Lines
import GlyphMachine.Text.Printable
import GlyphMachine.Text.Quoted
import GlyphMachine.Text.Search
import GlyphMachine.Text.Utf8
import GlyphMachine.Text.Width
import GlyphMachine.Token
import GlyphMachine.Token.Cursor
import GlyphMachine.Token.Lexer
import GlyphMachine.Trace
import GlyphMachine.Word
import GlyphMachine.Workspace
import GlyphMachine.Proofs.Language.Acceptance
import GlyphMachine.Proofs.Language.Assembly
import GlyphMachine.Proofs.Language.Grammar
import GlyphMachine.Proofs.Language.Tokens
import GlyphMachine.Proofs.Language.Words
import GlyphMachine.Proofs.Machine.ExactLimits
import GlyphMachine.Proofs.Machine.RaisedBudget
import GlyphMachine.Proofs.Machine.Reach
import GlyphMachine.Proofs.Machine.Rebudget
import GlyphMachine.Proofs.Machine.Request
import GlyphMachine.Proofs.Machine.Sandbox
import GlyphMachine.Proofs.Program.Clauses
import GlyphMachine.Proofs.Token.Reading
import GlyphMachine.Proofs.Text.LineBreaks
import GlyphMachine.Proofs.Token.Positions
import GlyphMachine.Proofs.Program.Origins
import GlyphMachine.Proofs.Machine.Faults
import GlyphMachine.Proofs.Language.LabelJumps
import GlyphMachine.Proofs.Program.Patching
import GlyphMachine.Proofs.SyntaxErrors.Snippets
import GlyphMachine.Proofs.Language.RoundTrip
import GlyphMachine.Proofs.Text.ClusterCuts
import GlyphMachine.Proofs.Editor.Session
import GlyphMachine.Proofs.Editor.ClusterEdges
import GlyphMachine.Proofs.Editor.Offsets
import GlyphMachine.Proofs.Editor.History
import GlyphMachine.Proofs.CommandLine.Agreement
import GlyphMachine.Proofs.Text.SavedText
import GlyphMachine.Proofs.Token.Matching
import GlyphMachine.Proofs.Program.Matching
import GlyphMachine.Proofs.SyntaxErrors.SavedText
import GlyphMachine.Proofs.Token.Columns
import GlyphMachine.Proofs.Token.LineByLine
import GlyphMachine.Proofs.Program.Complaints
import GlyphMachine.Proofs.Program.Operands
import GlyphMachine.Proofs.Token.Tiling
import GlyphMachine.Proofs.Token.Coverage
import GlyphMachine.Proofs.Program.Blame
import GlyphMachine.Proofs.SyntaxErrors.SourceOrder
import GlyphMachine.Proofs.Text.LineCuts
import GlyphMachine.Proofs.SyntaxErrors.Carets
import GlyphMachine.Proofs.Machine.StepErrors
import GlyphMachine.Proofs.Machine.UnboundedIntegers
import GlyphMachine.Proofs.Expectation.JoinedLines
import GlyphMachine.Proofs.Token.Layout
import GlyphMachine.Proofs.Text.Selectors
import GlyphMachine.Proofs.Language.Selectors
import GlyphMachine.Proofs.Program.ListingLines
import GlyphMachine.Proofs.Program.Listing
import GlyphMachine.Proofs.CommandLine.FullOutput
import GlyphMachine.Proofs.Editor.Recall
import GlyphMachine.Proofs.Editor.Redraw
import GlyphMachine.Proofs.Machine.Division
import GlyphMachine.Proofs.Machine.Counters
import GlyphMachine.Proofs.Token.Calls
