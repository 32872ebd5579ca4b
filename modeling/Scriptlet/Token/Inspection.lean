/-
Scriptlet.Token.Inspection — tokens shown for inspection.

The lexeme and the literal of a token are shown so that every symbol can be
told: texts in quotes and with escapes, numbers in the form for inspection.
-/
import Scriptlet.Token.Basic
import Scriptlet.Text.Quoted

namespace Scriptlet.Token

/-- A literal for inspection. -/
def Literal.inspect : Literal → Text
  | .number x => x.inspectForm.map .char
  | .string t => t.quoted

/-- A token for inspection: `Token(NUMBER, '1', 1.0, line=1)`. -/
def inspect (t : Token) : Text :=
  Text.ofString ("Token(" ++ t.kind.label ++ ", ") ++ t.lexeme.quoted ++ Text.ofString ", " ++
    t.literal.elim (Text.ofString "None") Literal.inspect ++ Text.ofString ", line=" ++
    Text.ofInt t.line ++ Text.ofString ")"

end Scriptlet.Token
