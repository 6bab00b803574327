import XPath.CharClass
import XPath.Axis
import XPath.Operator
import XPath.Token
import XPath.Token.Context
import XPath.Lexer
import XPath.Arena
import XPath.Namespace
import XPath.Function
import XPath.Options
import XPath.Options.Json
import XPath.Rejection
import XPath.Log
import XPath.Expr.Words
import XPath.Parser
import XPath.Script
import XPath.Proofs.Arena
import XPath.Proofs.Descent.Coupling
import XPath.Proofs.Descent.Handles
import XPath.Proofs.Token.Cursor
import XPath.Proofs.Token.Spelling
import XPath.Proofs.Token.Lexeme
import XPath.Proofs.Token.Name
import XPath.Proofs.Token.Scan
import XPath.Proofs.Token.Progress
import XPath.Proofs.Token.Positions
import XPath.Proofs.Token.Layout
import XPath.Proofs.Lexer
import XPath.Proofs.Lexemes
import XPath.Proofs.Parser
import XPath.Proofs.Descent.Yields
import XPath.Proofs.Grammar
import XPath.Proofs.Grammar.Operators
import XPath.Proofs.Descent.Soundness
import XPath.Proofs.Descent.Completeness
import XPath.Proofs.Descent.Exactness
import XPath.Proofs.Contents
import XPath.Proofs.Namespaces
import XPath.Proofs.Binary64
import XPath.Proofs.Expr
import XPath.Proofs.Printer
import XPath.Proofs.Printer.Consistent
import XPath.Proofs.Printer.Derives
import XPath.Proofs.RoundTrip
import XPath.Proofs.Arena.Calls
import XPath.Proofs.Arena.Ledger
import XPath.Proofs.Arena.Journal
import XPath.Proofs.Deeds
import XPath.Proofs.Stock
import XPath.Proofs.Descent.Rejections
import XPath.Proofs.Descent.Reel
import XPath.Proofs.Descent.EarliestError
import XPath.Proofs.Abbreviations
import XPath.Proofs.AcceptedTrees
import XPath.Proofs.Composition
import XPath.Proofs.Descent.DepthLimit
import XPath.Proofs.Reading
import XPath.Proofs.Faults
import XPath.Proofs.Descent.Lookahead
import XPath.Proofs.Descent.Validation
import XPath.Proofs.Respacing
import XPath.Proofs.Binary64.Nearest
import XPath.Proofs.Numerals
import XPath.Proofs.Height
