import Scriptlet.Text.Utf8
import Scriptlet.Text.Newline
import Scriptlet.Double.Rounding
import Scriptlet.Decimal.Numeral
import Scriptlet.Token.Basic
import Scriptlet.Token.Lexer
import Scriptlet.Tree.Printer
import Scriptlet.Tree.Parser
import Scriptlet.Session
import Scriptlet.Token.Inspection
import Scriptlet.Command.Line
import Scriptlet.Editor.Server
import Scriptlet.Tree.Operation
import Scriptlet.Main
import Scriptlet.Proofs.Tree.Recognition
import Scriptlet.Proofs.Run.Safety
import Scriptlet.Proofs.Run.Relocation
import Scriptlet.Proofs.Run.Succession
import Scriptlet.Proofs.Command.Prompt
import Scriptlet.Proofs.Text.Reading
import Scriptlet.Proofs.Command.Transparency
import Scriptlet.Proofs.Editor.History
import Scriptlet.Proofs.Editor.Declarations
import Scriptlet.Proofs.Run.Order
import Scriptlet.Proofs.Run.Naming
import Scriptlet.Proofs.Editor.Agreement
import Scriptlet.Proofs.Run.Frame
import Scriptlet.Proofs.Token.Word
import Scriptlet.Proofs.Editor.Pointing
import Scriptlet.Proofs.Token.Alternation
import Scriptlet.Proofs.Token.Munch
import Scriptlet.Proofs.Editor.Selection
import Scriptlet.Proofs.Run.Interruption
import Scriptlet.Proofs.Run.Growth
import Scriptlet.Proofs.Value.Equality
import Scriptlet.Proofs.Decimal.ReadBack
import Scriptlet.Proofs.Tree.Confinement
import Scriptlet.Proofs.Tree.Unambiguous
import Scriptlet.Proofs.Run.Blame
import Scriptlet.Proofs.Command.ExitStatus
import Scriptlet.Proofs.Tree.Budget
import Scriptlet.Proofs.Tree.Operations
