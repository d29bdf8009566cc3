/-!
The binary operators of a statement.

* `ArithOp`: the four operations of arithmetic, with the exact result of
  each on integers (`ArithOp.exact`) and its result on doubles
  (`ArithOp.float`);
* `Comparison`: the five comparisons, each a set of orderings of its two
  sides (`Comparison.holds`).
-/

namespace Reckon

/-- The operations of arithmetic. -/
inductive ArithOp where
  | add
  | sub
  | mul
  | div
deriving DecidableEq, Repr

namespace ArithOp

/-- How the operator is written. -/
def symbol : ArithOp → String
  | add => "+"
  | sub => "-"
  | mul => "*"
  | div => "/"

/-- The result on integers of any size; division rounds toward zero. -/
def exact : ArithOp → Int → Int → Int
  | add, l, r => l + r
  | sub, l, r => l - r
  | mul, l, r => l * r
  | div, l, r => l.tdiv r

/-- The result on doubles. -/
def float : ArithOp → Float → Float → Float
  | add, l, r => l + r
  | sub, l, r => l - r
  | mul, l, r => l * r
  | div, l, r => l / r

end ArithOp

/-- The comparisons. -/
inductive Comparison where
  | less
  | lessEqual
  | greater
  | greaterEqual
  | equal
deriving DecidableEq, Repr

namespace Comparison

/-- How the comparison is written. -/
def symbol : Comparison → String
  | less => "<"
  | lessEqual => "<="
  | greater => ">"
  | greaterEqual => ">="
  | equal => "=="

/-- The comparison holds of two sides in this ordering. -/
def admits : Comparison → Ordering → Bool
  | less, o => o = .lt
  | lessEqual, o => o ≠ .gt
  | greater, o => o = .gt
  | greaterEqual, o => o ≠ .lt
  | equal, o => o = .eq

/-- The comparison holds of two sides in this ordering; no comparison holds of
two sides that are not ordered. -/
def holds (c : Comparison) : Option Ordering → Bool
  | none => false
  | some o => c.admits o

end Comparison

end Reckon
