import Reckon.Token

/-!
What can go wrong with a statement.

* `LexError`: the text has no token at some place;
* `SyntaxError`: a token stands where it may not;
* `Error`: one of these, or a computation that has no result.

Every cause carries what its message names, and the messages are written
in `Reckon.Error.Report`.
-/

namespace Reckon

/-- Why a text has no token at some place. -/
inductive LexError where
  /-- The digits denote a number above the greatest integer. -/
  | integerTooLarge (digits : String)
  /-- The number has a decimal point but no digit. -/
  | noDigits (literal : String)
  | severalPoints (literal : String)
  /-- A word in front of a parenthesis names no function. -/
  | unknownFunction (word : String)
  /-- The character starts no token. -/
  | unexpectedCharacter (c : Char)
deriving DecidableEq

/-- Why a token may not stand where it stands. -/
inductive SyntaxError where
  | operandExpected (found : Token)
  | closingExpected (found : Token)
  /-- The statement was complete before this token. -/
  | trailing (found : Token)
  /-- One parenthesis too many is open. -/
  | nestedTooDeeply
deriving DecidableEq

/-- Why a statement has no result. -/
inductive Error where
  | lexical (cause : LexError)
  | syntactic (cause : SyntaxError)
  /-- The variable was never assigned. -/
  | undefined (name : String)
  | outsideDomain (f : Elementary) (x : Float)
  /-- The argument of the cotangent is a zero of the tangent. -/
  | cotangentPole (x : Float)
  | integerDivisionByZero
  | floatDivisionByZero
  /-- The exact result is not a 64-bit integer. -/
  | integerOverflow (left : Int64) (op : ArithOp) (right : Int64)
  /-- The function value of a finite argument is infinite. -/
  | functionOverflow (f : Elementary) (x : Float)
  | booleanOperand
  | booleanCompared (op : Comparison)
deriving DecidableEq

end Reckon
