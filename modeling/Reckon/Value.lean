import Reckon.Token

/-!
The values that expressions have and variables hold.

* `Value`: an integer, a double or a truth value;
* `Value.render`: the text of a value;
* `Value.same`: equality of values of one kind, in which doubles are equal
  as numbers.
-/

namespace Reckon

/-- The value of an expression. -/
inductive Value where
  | int (n : Int64)
  | float (x : Float)
  /-- The outcome of a comparison. -/
  | bool (b : Bool)
deriving DecidableEq

namespace Value

/-- The text of a value. A double always shows that it is one. -/
def render : Value → String
  | int n => String.ofList (Decimal.integer n.toInt)
  | float x => String.ofList (Decimal.float x)
  | bool true => "true"
  | bool false => "false"

/-- The values are of one kind and equal, doubles being compared as numbers. -/
def same : Value → Value → Bool
  | float x, float y => x == y
  | v, w => decide (v = w)

/-- The value is a truth value. -/
def IsBool : Value → Prop
  | bool _ => True
  | _ => False

/-- Whether a value is a truth value is seen from its kind. -/
instance : DecidablePred IsBool
  | int _ => .isFalse id
  | float _ => .isFalse id
  | bool _ => .isTrue trivial

end Value

end Reckon
