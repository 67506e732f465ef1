import SexprLex.Text.Position
import SexprLex.Text.CharClass
import SexprLex.Text.Unprintable
import SexprLex.Text.Escaped
import SexprLex.Input.Fault
import SexprLex.Input.Reader
import SexprLex.Input.Utf8
import SexprLex.Input.Cursor
import SexprLex.Token.Number
import SexprLex.Token.Literal
import SexprLex.Token.LexError
import SexprLex.Token.Basic
import SexprLex.Scan.Mode
import SexprLex.Scan.Lexer
import SexprLex.Scan.TokenStream
import SexprLex.Scan.Description
import SexprLex.Report.Diagnostic
import SexprLex.Report.Sink
import SexprLex.Report.Dump
import SexprLex.Program.FileTree
import SexprLex.Program.LoadError
import SexprLex.Program.CommandLine
import SexprLex.Main
import SexprLex.Proofs.Calls
import SexprLex.Proofs.Text.Escaping
import SexprLex.Proofs.Input.Encoding
import SexprLex.Proofs.Input.Items
import SexprLex.Proofs.Input.Script
import SexprLex.Proofs.Input.Decoding
import SexprLex.Proofs.Input.Interleaving
import SexprLex.Proofs.Scan.Reading
import SexprLex.Proofs.Scan.Lexemes
import SexprLex.Proofs.Token.NumberGrammar
import SexprLex.Proofs.Token.StringBody
import SexprLex.Proofs.Scan.Munch
import SexprLex.Proofs.Scan.Coverage
import SexprLex.Proofs.Scan.Failure
import SexprLex.Proofs.Scan.Comments
import SexprLex.Proofs.Scan.Transport
import SexprLex.Proofs.Scan.Lifecycle
import SexprLex.Proofs.Scan.Lines
import SexprLex.Proofs.Scan.Numbers
import SexprLex.Proofs.Scan.Strings
import SexprLex.Proofs.Scan.Spacing
import SexprLex.Proofs.Scan.Progress
import SexprLex.Proofs.Report.Writing
import SexprLex.Proofs.Report.Agreement
import SexprLex.Proofs.Report.Truncation
import SexprLex.Proofs.Report.Unambiguous
import SexprLex.Proofs.Scan.Lookahead
import SexprLex.Proofs.Text.Positions
import SexprLex.Proofs.Report.Controls
import SexprLex.Proofs.Program.CommandLine
