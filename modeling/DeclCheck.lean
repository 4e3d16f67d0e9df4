import DeclCheck.Position
import DeclCheck.Token
import DeclCheck.Token.Lexer
import DeclCheck.Expr
import DeclCheck.Program
import DeclCheck.Parser.Basic
import DeclCheck.Parser.Expression
import DeclCheck.Parser.Statement
import DeclCheck.Parser.Program
import DeclCheck.Diagnostic
import DeclCheck.ValueForm
import DeclCheck.Signature
import DeclCheck.ProgramScope
import DeclCheck.BodyScope
import DeclCheck.Analysis.Finding
import DeclCheck.Analysis.DeclaredNames
import DeclCheck.Analysis.CalledNames
import DeclCheck.Analysis
import DeclCheck.Check
import DeclCheck.Text.CodePoints
import DeclCheck.Text.Lines
import DeclCheck.Text.WhiteSpace
import DeclCheck.Text.Combining
import DeclCheck.Text.Unassigned
import DeclCheck.Text.Visible
import DeclCheck.Text.Width
import DeclCheck.Text.Quoted
import DeclCheck.Text.Outline
import DeclCheck.Listing
import DeclCheck.ReportFile
import DeclCheck.Sink
import DeclCheck.Snippet
import DeclCheck.ProgramOutline
import DeclCheck.CommandLine.Arguments
import DeclCheck.CommandLine.Host
import DeclCheck.CommandLine.Surroundings
import DeclCheck.CommandLine.Command
import DeclCheck.Main
import DeclCheck.Proofs.Position
import DeclCheck.Proofs.Position.Newlines
import DeclCheck.Proofs.Bare
import DeclCheck.Proofs.Relocate
import DeclCheck.Proofs.Grammar
import DeclCheck.Proofs.Grammar.FirstToken
import DeclCheck.Proofs.Grammar.Layout
import DeclCheck.Proofs.Grammar.Mentions
import DeclCheck.Proofs.Grammar.Text
import DeclCheck.Proofs.Token.Scan
import DeclCheck.Proofs.Token.Order
import DeclCheck.Proofs.Token.NamePairs
import DeclCheck.Proofs.Token.Lexeme
import DeclCheck.Proofs.Token.Sequences
import DeclCheck.Proofs.Token.Lines
import DeclCheck.Proofs.Token.Pieces
import DeclCheck.Proofs.Token.Tiling
import DeclCheck.Proofs.Token.Pattern
import DeclCheck.Proofs.Token.LongestMatch
import DeclCheck.Proofs.Token.ValueForms
import DeclCheck.Proofs.Token.Joined
import DeclCheck.Proofs.Token.Slices
import DeclCheck.Proofs.Token.Words
import DeclCheck.Proofs.Program.Sites
import DeclCheck.Proofs.Program.Layout
import DeclCheck.Proofs.Program.Placement
import DeclCheck.Proofs.Grammar.Placement
import DeclCheck.Proofs.Parser.Runs
import DeclCheck.Proofs.Parser.Induction
import DeclCheck.Proofs.Parser.Keeps
import DeclCheck.Proofs.Parser.LookAhead
import DeclCheck.Proofs.Parser.Soundness
import DeclCheck.Proofs.Parser.Progress
import DeclCheck.Proofs.Parser.ProgramSoundness
import DeclCheck.Proofs.Parser.Extension
import DeclCheck.Proofs.Parser.Acceptance
import DeclCheck.Proofs.Parser.Completeness
import DeclCheck.Proofs.Parser.ProgramCompleteness
import DeclCheck.Proofs.Parser.Exactness
import DeclCheck.Proofs.Parser.Relocate
import DeclCheck.Proofs.Parser.Nesting
import DeclCheck.Proofs.Parser.Budget
import DeclCheck.Proofs.Parser.Answers
import DeclCheck.Proofs.Parser.Contents
import DeclCheck.Proofs.Parser.Taking
import DeclCheck.Proofs.Parser.Rounds
import DeclCheck.Proofs.Parser.SingleItem
import DeclCheck.Proofs.Parser.Reread
import DeclCheck.Proofs.Parser.Height
import DeclCheck.Proofs.Parser.NestingLimits
import DeclCheck.Proofs.Parser.Placement
import DeclCheck.Proofs.Parser.Joined
import DeclCheck.Proofs.Parser.ErrorOrder
import DeclCheck.Proofs.Parser.Script
import DeclCheck.Proofs.Parser.Procedures
import DeclCheck.Proofs.Parser.Streaming
import DeclCheck.Proofs.Parser.Steps
import DeclCheck.Proofs.Parser.Descent
import DeclCheck.Proofs.Parser.Balance
import DeclCheck.Proofs.Parser.LexicalErrors
import DeclCheck.Proofs.Analysis.Filings
import DeclCheck.Proofs.Analysis.Runs
import DeclCheck.Proofs.Analysis.Recorded
import DeclCheck.Proofs.Analysis.Stopping
import DeclCheck.Proofs.Analysis.Reset
import DeclCheck.Proofs.Analysis.Additive
import DeclCheck.Proofs.Analysis.WellFormed
import DeclCheck.Proofs.Analysis.UndefinedCalls
import DeclCheck.Proofs.Analysis.Layout
import DeclCheck.Proofs.Analysis.ItemOrder
import DeclCheck.Proofs.Analysis.Nodes
import DeclCheck.Proofs.Analysis.Duplicates
import DeclCheck.Proofs.Analysis.Reach
import DeclCheck.Proofs.Report.CompactText
import DeclCheck.Proofs.Report.CallPatterns
import DeclCheck.Proofs.Report.History
import DeclCheck.Proofs.Report.Lines
import DeclCheck.Proofs.Report.Positions
import DeclCheck.Proofs.Analysis.InitialValues
import DeclCheck.Proofs.Analysis.SignatureTexts
import DeclCheck.Proofs.Sink
import DeclCheck.Proofs.Report.Listings
