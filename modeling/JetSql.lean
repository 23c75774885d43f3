import JetSql.Calendar.Date
import JetSql.Calendar.Written
import JetSql.CommandLine.Arguments
import JetSql.CommandLine.Report
import JetSql.CommandLine.Run
import JetSql.Config
import JetSql.Convert
import JetSql.Dialect
import JetSql.Dictionary
import JetSql.Disk
import JetSql.Error
import JetSql.Files
import JetSql.Grammar.Expression
import JetSql.Grammar.Link
import JetSql.Grammar.Nesting
import JetSql.Grammar.Reader
import JetSql.Grammar.Statement
import JetSql.Grammar.Table
import JetSql.Grammar.Token
import JetSql.Json
import JetSql.Main
import JetSql.Path
import JetSql.Pattern
import JetSql.Proofs.Calendar.Date
import JetSql.Proofs.Calendar.Moment
import JetSql.Proofs.Calendar.Numeral
import JetSql.Proofs.Calendar.Time
import JetSql.Proofs.CommandLine.Convert
import JetSql.Proofs.CommandLine.Explain
import JetSql.Proofs.CommandLine.Reading
import JetSql.Proofs.Complete.Derivation
import JetSql.Proofs.Complete.Front
import JetSql.Proofs.Complete.Length
import JetSql.Proofs.Dictionary
import JetSql.Proofs.Files.Write
import JetSql.Proofs.Grammar.Abort
import JetSql.Proofs.Grammar.Derivation
import JetSql.Proofs.Grammar.Form
import JetSql.Proofs.Grammar.Height
import JetSql.Proofs.Grammar.Leaf
import JetSql.Proofs.Grammar.Levels
import JetSql.Proofs.Grammar.Limit
import JetSql.Proofs.Grammar.Misses
import JetSql.Proofs.Grammar.Nesting
import JetSql.Proofs.Grammar.Parametric
import JetSql.Proofs.Grammar.Parentheses
import JetSql.Proofs.Grammar.Position
import JetSql.Proofs.Grammar.Shape
import JetSql.Proofs.Grammar.Source
import JetSql.Proofs.Grammar.Success
import JetSql.Proofs.Grammar.Suffix
import JetSql.Proofs.Layout.Blind
import JetSql.Proofs.Layout.Relaid
import JetSql.Proofs.Layout.Statement
import JetSql.Proofs.Lexical.Account
import JetSql.Proofs.Lexical.Operand
import JetSql.Proofs.Lexical.Order
import JetSql.Proofs.Lexical.Reading
import JetSql.Proofs.Lexical.Token
import JetSql.Proofs.Lexical.Writing
import JetSql.Proofs.Pattern.Matching
import JetSql.Proofs.Pattern.Source
import JetSql.Proofs.Pattern.Target
import JetSql.Proofs.ReadBack.Conditional
import JetSql.Proofs.ReadBack.Expression
import JetSql.Proofs.ReadBack.Leaf
import JetSql.Proofs.ReadBack.LoneReturn
import JetSql.Proofs.ReadBack.Nesting
import JetSql.Proofs.ReadBack.Opening
import JetSql.Proofs.ReadBack.Operand
import JetSql.Proofs.ReadBack.Statement
import JetSql.Proofs.ReadBack.Table
import JetSql.Proofs.ReadBack.Tallest
import JetSql.Proofs.ReadBack.Token
import JetSql.Proofs.Renderer.Collapse
import JetSql.Proofs.Renderer.Concat
import JetSql.Proofs.Renderer.Limit
import JetSql.Proofs.Renderer.Portable
import JetSql.Proofs.Renderer.Rename
import JetSql.Proofs.Renderer.Success
import JetSql.Proofs.Renderer.Visits
import JetSql.Proofs.Target.Balanced
import JetSql.Proofs.Target.Comment
import JetSql.Proofs.Target.Composition
import JetSql.Proofs.Target.Contained
import JetSql.Proofs.Target.Grouping
import JetSql.Proofs.Target.Leaf
import JetSql.Proofs.Target.Lexing
import JetSql.Proofs.Target.Meaning
import JetSql.Proofs.Target.Name
import JetSql.Proofs.Target.Quotation
import JetSql.Proofs.Target.Reader
import JetSql.Proofs.Target.Rendered
import JetSql.Proofs.Target.Sign
import JetSql.Proofs.Target.Spelling
import JetSql.Proofs.Target.StringLiteral
import JetSql.Proofs.Target.Template
import JetSql.Proofs.Target.Tree
import JetSql.Proofs.Text.Case
import JetSql.Proofs.Text.Paired
import JetSql.Proofs.Text.Position
import JetSql.Proofs.Text.Trimmed
import JetSql.Proofs.Tree.Everywhere
import JetSql.Proofs.Tree.Walk
import JetSql.Proofs.Tree.Weight
import JetSql.Renderer
import JetSql.Rule
import JetSql.Settings
import JetSql.Text.Alphabetic
import JetSql.Text.Blank
import JetSql.Text.Combining
import JetSql.Text.Escape
import JetSql.Text.Numeric
import JetSql.Text.Pad
import JetSql.Text.Position
import JetSql.Text.Printable
import JetSql.Text.Quoted
import JetSql.Text.Ranges
import JetSql.Text.Word
import JetSql.Toml.Document
import JetSql.Toml.Moment
import JetSql.Toml.Scan
import JetSql.Toml.Value
import JetSql.Tree.Basic
import JetSql.Tree.Conditional
import JetSql.Tree.Kind
import JetSql.Tree.Label
import JetSql.Tree.Operator
import JetSql.Tree.Serial
