import Seashell.Assoc
import Seashell.Block
import Seashell.Block.Pool
import Seashell.Charset.Basic
import Seashell.Charset.Fault
import Seashell.Charset.Library
import Seashell.Charset.SingleByte
import Seashell.Charset.Stream
import Seashell.Charset.Utf8
import Seashell.Charset.Wide
import Seashell.Codec
import Seashell.CommandLine.Arguments
import Seashell.CommandLine.Command
import Seashell.CommandLine.Run
import Seashell.Condition
import Seashell.Conversion
import Seashell.ConverterTable
import Seashell.Decimal.Notation
import Seashell.Decimal.Shortest
import Seashell.Demo
import Seashell.Example
import Seashell.Failure
import Seashell.FileTree.Basic
import Seashell.FileTree.Workspace
import Seashell.Json.Reader
import Seashell.Json.Writer
import Seashell.Main
import Seashell.Notice
import Seashell.Path
import Seashell.Platform
import Seashell.Reencoding
import Seashell.Report.Analysis
import Seashell.Report.Basic
import Seashell.Report.Document
import Seashell.Report.Reading
import Seashell.Report.Summary
import Seashell.Rule
import Seashell.Script
import Seashell.Selection
import Seashell.Settings
import Seashell.Settings.Output
import Seashell.Settings.Reading
import Seashell.Statement.Bash
import Seashell.Statement.Basic
import Seashell.Statement.Scan
import Seashell.Substitution
import Seashell.Text.Basic
import Seashell.Text.CodePoints
import Seashell.Text.Decimal
import Seashell.Text.LetterCase
import Seashell.Text.Lines
import Seashell.Text.Literal
import Seashell.Text.Ordered
import Seashell.Text.Printable
import Seashell.Text.Scan
import Seashell.Text.WordClass
import Seashell.Trace
import Seashell.Value.Basic
import Seashell.Value.Coerce
import Seashell.Value.Display
import Seashell.Yaml.Cursor
import Seashell.Yaml.Fault
import Seashell.Yaml.Lexeme
import Seashell.Yaml.Meaning
import Seashell.Yaml.Node
import Seashell.Yaml.Reader
import Seashell.Yaml.Scalar
import Seashell.Yaml.Token
import Seashell.Yaml.Writer
import Seashell.Proofs.BacktickPairs
import Seashell.Proofs.Backups
import Seashell.Proofs.Chunks
import Seashell.Proofs.Commands
import Seashell.Proofs.CompoundConditions
import Seashell.Proofs.Conversion
import Seashell.Proofs.ConverterTable
import Seashell.Proofs.CrossReferences
import Seashell.Proofs.Documents.Json
import Seashell.Proofs.Documents.Normalization
import Seashell.Proofs.Documents.Portable
import Seashell.Proofs.Documents.Reports
import Seashell.Proofs.Documents.Scripts
import Seashell.Proofs.Documents.Yaml.Lexing
import Seashell.Proofs.Documents.Yaml.Nodes
import Seashell.Proofs.Documents.Yaml.Places
import Seashell.Proofs.Documents.Yaml.Plain
import Seashell.Proofs.Documents.Yaml.Quotes
import Seashell.Proofs.Documents.Yaml.Reading
import Seashell.Proofs.Documents.Yaml.Tokens
import Seashell.Proofs.FileConversion
import Seashell.Proofs.FileTests
import Seashell.Proofs.Functions
import Seashell.Proofs.Independence
import Seashell.Proofs.InsertedQuotes
import Seashell.Proofs.Inventory
import Seashell.Proofs.Jumps
import Seashell.Proofs.Language.Clauses
import Seashell.Proofs.Language.Conditions
import Seashell.Proofs.Language.Equalities
import Seashell.Proofs.Language.Lines
import Seashell.Proofs.Language.Programs
import Seashell.Proofs.Language.Tokens
import Seashell.Proofs.Lines
import Seashell.Proofs.Listing
import Seashell.Proofs.Locality
import Seashell.Proofs.Location
import Seashell.Proofs.Opening
import Seashell.Proofs.Output
import Seashell.Proofs.OutputNames
import Seashell.Proofs.Recognition
import Seashell.Proofs.Reencoding
import Seashell.Proofs.RuleOrder
import Seashell.Proofs.Scan
import Seashell.Proofs.SettingsFiles
import Seashell.Proofs.Substitution
import Seashell.Proofs.TableHealth
import Seashell.Proofs.Text
import Seashell.Proofs.Trace
import Seashell.Proofs.Trackers
import Seashell.Proofs.Transcoding
import Seashell.Proofs.UnconvertedFlow
import Seashell.Proofs.Walk
import Seashell.Proofs.Writes
import Seashell.Proofs.WrittenLines
