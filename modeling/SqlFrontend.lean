import SqlFrontend.CommandLine.Arguments
import SqlFrontend.CommandLine.Report
import SqlFrontend.Dialect
import SqlFrontend.Document.Lexeme
import SqlFrontend.Document.Numeral
import SqlFrontend.Document.Spelling
import SqlFrontend.Document.Value
import SqlFrontend.Document.Writer
import SqlFrontend.Document.Written
import SqlFrontend.Grammar.Block
import SqlFrontend.Grammar.Command
import SqlFrontend.Grammar.Control
import SqlFrontend.Grammar.Explain
import SqlFrontend.Grammar.Expression
import SqlFrontend.Grammar.Names
import SqlFrontend.Grammar.Nested
import SqlFrontend.Grammar.Query
import SqlFrontend.Grammar.Routine
import SqlFrontend.Grammar.Rows
import SqlFrontend.Grammar.Statement
import SqlFrontend.Grammar.Table
import SqlFrontend.Grammar.Transaction
import SqlFrontend.Grammar.Trigger
import SqlFrontend.Grammar.Types
import SqlFrontend.Grammar.View
import SqlFrontend.Lexing.Cursor
import SqlFrontend.Lexing.Keyword
import SqlFrontend.Lexing.Lexer
import SqlFrontend.Lexing.Span
import SqlFrontend.Lexing.Token
import SqlFrontend.Main
import SqlFrontend.Metrics
import SqlFrontend.Number.Binary64
import SqlFrontend.Number.Decimal
import SqlFrontend.Number.Numeral
import SqlFrontend.Parsing.Error
import SqlFrontend.Parsing.Parser
import SqlFrontend.Parsing.Production
import SqlFrontend.Parsing.Session
import SqlFrontend.Plan.Basic
import SqlFrontend.Plan.Format
import SqlFrontend.Plan.NodeKind
import SqlFrontend.Plan.Reader
import SqlFrontend.Plan.Writer
import SqlFrontend.Proofs.Grammar.Bare
import SqlFrontend.Proofs.Grammar.Block
import SqlFrontend.Proofs.Grammar.Body
import SqlFrontend.Proofs.Grammar.ClosedBody
import SqlFrontend.Proofs.Grammar.Column
import SqlFrontend.Proofs.Grammar.Command
import SqlFrontend.Proofs.Grammar.Control
import SqlFrontend.Proofs.Grammar.DataType
import SqlFrontend.Proofs.Grammar.Descent
import SqlFrontend.Proofs.Grammar.Expression
import SqlFrontend.Proofs.Grammar.Heading
import SqlFrontend.Proofs.Grammar.Label
import SqlFrontend.Proofs.Grammar.Names
import SqlFrontend.Proofs.Grammar.Nested
import SqlFrontend.Proofs.Grammar.Query
import SqlFrontend.Proofs.Grammar.Quoted
import SqlFrontend.Proofs.Grammar.Routine
import SqlFrontend.Proofs.Grammar.Statement
import SqlFrontend.Proofs.Grammar.Table
import SqlFrontend.Proofs.Kinship.Block
import SqlFrontend.Proofs.Kinship.Command
import SqlFrontend.Proofs.Kinship.Control
import SqlFrontend.Proofs.Kinship.Routine
import SqlFrontend.Proofs.Kinship.Statement
import SqlFrontend.Proofs.Ledger.Block
import SqlFrontend.Proofs.Ledger.Control
import SqlFrontend.Proofs.Ledger.Routine
import SqlFrontend.Proofs.Ledger.Statement
import SqlFrontend.Proofs.Lexing.LetterCase
import SqlFrontend.Proofs.Lexing.Numerals
import SqlFrontend.Proofs.Lexing.Pieces
import SqlFrontend.Proofs.Lexing.Reading
import SqlFrontend.Proofs.Lexing.Seam
import SqlFrontend.Proofs.Lexing.Separator
import SqlFrontend.Proofs.Lexing.SlicedTokens
import SqlFrontend.Proofs.Lexing.Slicing
import SqlFrontend.Proofs.Lexing.Tiling
import SqlFrontend.Proofs.Lexing.Words
import SqlFrontend.Proofs.Number.Numeral
import SqlFrontend.Proofs.Parsing.Course
import SqlFrontend.Proofs.Parsing.Likeness
import SqlFrontend.Proofs.Parsing.Lockstep
import SqlFrontend.Proofs.Parsing.Pieces
import SqlFrontend.Proofs.Parsing.Run
import SqlFrontend.Proofs.Parsing.Skipping
import SqlFrontend.Proofs.Parsing.Success
import SqlFrontend.Proofs.Parsing.Telling
import SqlFrontend.Proofs.Parsing.Yield
import SqlFrontend.Proofs.Plan.Forms
import SqlFrontend.Proofs.Plan.RoundTrip
import SqlFrontend.Proofs.Plan.Walk
import SqlFrontend.Proofs.Session.Acceptance
import SqlFrontend.Proofs.Session.Acquisition
import SqlFrontend.Proofs.Session.Attempts
import SqlFrontend.Proofs.Session.Batch
import SqlFrontend.Proofs.Session.Boundary
import SqlFrontend.Proofs.Session.Characteristics
import SqlFrontend.Proofs.Session.ColumnOrder
import SqlFrontend.Proofs.Session.DataType
import SqlFrontend.Proofs.Session.ErrorLog
import SqlFrontend.Proofs.Session.Expiry
import SqlFrontend.Proofs.Session.Gating
import SqlFrontend.Proofs.Session.Identity
import SqlFrontend.Proofs.Session.Label
import SqlFrontend.Proofs.Session.Layout
import SqlFrontend.Proofs.Session.LetterCase
import SqlFrontend.Proofs.Session.Numerals
import SqlFrontend.Proofs.Session.Pointing
import SqlFrontend.Proofs.Session.Progress
import SqlFrontend.Proofs.Session.Reuse
import SqlFrontend.Proofs.Session.RoundTrip
import SqlFrontend.Proofs.Session.RoutineOrder
import SqlFrontend.Proofs.Session.SameText
import SqlFrontend.Proofs.Session.SideBySide
import SqlFrontend.Proofs.Session.Suffix
import SqlFrontend.Proofs.Session.TokenCount
import SqlFrontend.Proofs.Session.Unquoted
import SqlFrontend.Proofs.Session.View
import SqlFrontend.Proofs.Session.WellFormed
import SqlFrontend.Proofs.Shape.Block
import SqlFrontend.Proofs.Shape.Command
import SqlFrontend.Proofs.Shape.Control
import SqlFrontend.Proofs.Shape.Expression
import SqlFrontend.Proofs.Shape.Names
import SqlFrontend.Proofs.Shape.Query
import SqlFrontend.Proofs.Shape.Routine
import SqlFrontend.Proofs.Shape.Statement
import SqlFrontend.Proofs.Shape.Table
import SqlFrontend.Proofs.Summary.DataType
import SqlFrontend.Proofs.Summary.Expression
import SqlFrontend.Proofs.Summary.RoundTrip
import SqlFrontend.Proofs.Tree.Accounting
import SqlFrontend.Proofs.Tree.Changes
import SqlFrontend.Proofs.Tree.Literal
import SqlFrontend.Proofs.Tree.Shape
import SqlFrontend.Proofs.Tree.Walk
import SqlFrontend.Summary.Definition
import SqlFrontend.Summary.Query
import SqlFrontend.Summary.Statement
import SqlFrontend.Text.Alphanumeric
import SqlFrontend.Text.Blank
import SqlFrontend.Text.Word
import SqlFrontend.Tree.DataType
import SqlFrontend.Tree.Definition
import SqlFrontend.Tree.Literal
import SqlFrontend.Tree.Name
import SqlFrontend.Tree.Options
import SqlFrontend.Tree.Pool
import SqlFrontend.Tree.Query
import SqlFrontend.Tree.Routine
import SqlFrontend.Tree.Statement
import SqlFrontend.Tree.Walk
