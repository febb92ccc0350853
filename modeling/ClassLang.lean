import ClassLang.Grammar.Phrase
import ClassLang.Main
import ClassLang.Proofs.Session.Constants
import ClassLang.Proofs.Session.Relocation
import ClassLang.Proofs.Session.RoundTrip
import ClassLang.Proofs.Session.Segment
import ClassLang.Proofs.Traversal.Trace
import ClassLang.Source.Cursor
import ClassLang.Traversal.Trace
import ClassLang.Proofs.Token.Seam
import ClassLang.Proofs.Session.Append
import ClassLang.Proofs.Session.Blame
import ClassLang.Proofs.Token.Longest
import ClassLang.Proofs.Session.Respacing
import ClassLang.Proofs.Grammar.Blame
import ClassLang.Proofs.Session.History
import ClassLang.Proofs.Command.Arguments
import ClassLang.Proofs.Command.Batch
import ClassLang.Proofs.Token.Fault
import ClassLang.Proofs.Session.StringLiteral
import ClassLang.Proofs.Session.Accounts
import ClassLang.Proofs.Grammar.Termination.Declaration
import ClassLang.Proofs.Session.EndMark
import ClassLang.Proofs.Session.Lookahead
import ClassLang.Proofs.Grammar.Chain
import ClassLang.Proofs.Source.Line
import ClassLang.Proofs.Traversal.EntryPoint
import ClassLang.Proofs.Session.Complaint
import ClassLang.Proofs.Session.Report
import ClassLang.Proofs.Token.IntegerLiteral
import ClassLang.Proofs.Session.IntegerLiteral
import ClassLang.Proofs.Token.Lexer
