import Reckon.Decimal.Layout
import Reckon.Elementary
import Reckon.Operator

/-!
The tokens of a statement.

* `Token`: the kinds of tokens, the end of the text being one of them;
* `Token.render`: the text of a token in messages;
* `Token.same`: equality of tokens in which doubles are equal as numbers.
-/

namespace Reckon

/-- The smallest unit of a statement. -/
inductive Token where
  | int (n : Int64)
  | float (x : Float)
  | ident (name : String)
  /-- The name of a function that is called. -/
  | function (f : Elementary)
  | arith (op : ArithOp)
  | comparison (op : Comparison)
  | assign
  | lparen
  | rparen
  /-- The end of the text. -/
  | eof
deriving DecidableEq

namespace Token

/-- The text of a token in messages. -/
def render : Token → String
  | int n => String.ofList (Decimal.integer n.toInt)
  | float x => String.ofList (Decimal.float x)
  | ident name => name
  | function f => f.name
  | arith op => op.symbol
  | comparison op => op.symbol
  | assign => "="
  | lparen => "("
  | rparen => ")"
  | eof => "end of input"

/-- The tokens are equal, doubles being compared as numbers: the two zeros are
equal, and what is not a number is not even equal to itself. -/
def same : Token → Token → Bool
  | float x, float y => x == y
  | s, t => decide (s = t)

end Token

end Reckon
