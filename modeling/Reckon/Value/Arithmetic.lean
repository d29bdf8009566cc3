import Reckon.Error
import Reckon.Value

/-!
Arithmetic and comparison of values.

Two integers are computed with exactly, and the result must again be a
64-bit integer. If one side is a double, so is the result. Truth values
take no part.

* `fit?`: an integer as a 64-bit integer, if it is in range;
* `Value.asFloat`: a number as a double;
* `Value.apply`: an operation of arithmetic;
* `Value.compare`: a comparison, exact between integers.
-/

namespace Reckon

/-- The integer, if 64 bits can hold it. -/
def fit? (n : Int) : Option Int64 :=
  if Int64.minValue.toInt ≤ n ∧ n ≤ Int64.maxValue.toInt then some (Int64.ofInt n) else none

/-- An integer fits exactly if it is the value of some 64 bits, and it fits into
these. -/
theorem fit?_eq_some_iff {n : Int} {m : Int64} : fit? n = some m ↔ m.toInt = n := by
  rw [fit?]
  constructor
  · intro h
    split at h
    case isTrue hn =>
      cases h
      exact Int64.toInt_ofInt_of_le hn.1 (Int.lt_add_one_iff.2 hn.2)
    case isFalse => cases h
  · rintro rfl
    rw [if_pos ⟨m.minValue_le_toInt, m.toInt_le⟩, Int64.ofInt_toInt]

/-- The operation on integers. -/
def ArithOp.applyInt (op : ArithOp) (left right : Int64) : Except Error Int64 :=
  if op = .div ∧ right = 0 then
    .error .integerDivisionByZero
  else
    match fit? (op.exact left.toInt right.toInt) with
    | some n => .ok n
    | none => .error (.integerOverflow left op right)

/-- The operation on doubles. Both zeros are refused as divisors. -/
def ArithOp.applyFloat (op : ArithOp) (left right : Float) : Except Error Float :=
  if op = .div ∧ right == 0.0 then .error .floatDivisionByZero else .ok (op.float left right)

/-- The ordering of two doubles, none if one of them is not a number. -/
def floatOrdering (left right : Float) : Option Ordering :=
  match decide (left ≤ right), decide (right ≤ left) with
  | true, true => some .eq
  | true, false => some .lt
  | false, true => some .gt
  | false, false => none

/-- Exchanging the two sides turns their ordering around. -/
theorem floatOrdering_swap (left right : Float) :
    floatOrdering right left = (floatOrdering left right).map Ordering.swap := by
  rw [floatOrdering, floatOrdering]
  cases decide (left ≤ right) <;> cases decide (right ≤ left) <;> rfl

namespace Value

/-- The number as a double, integers being rounded to the nearest one. -/
def asFloat : Value → Except Error Float
  | int n => .ok (Float.ofInt n.toInt)
  | float x => .ok x
  | bool _ => .error .booleanOperand

/-- The operation on two numbers: on integers if both are, else on doubles. -/
def apply (op : ArithOp) : Value → Value → Except Error Value
  | int left, int right => (op.applyInt left right).map int
  | left, right => do
      let x ← left.asFloat
      let y ← right.asFloat
      float <$> op.applyFloat x y

/-- The ordering of two numbers, exact if both are integers. -/
def ordering : Value → Value → Except Error (Option Ordering)
  | int left, int right => .ok (some (Ord.compare left.toInt right.toInt))
  | left, right => do
      let x ← left.asFloat
      let y ← right.asFloat
      pure (floatOrdering x y)

/-- The comparison of two numbers. -/
def compare (op : Comparison) (left right : Value) : Except Error Value :=
  if left.IsBool ∨ right.IsBool then
    .error (.booleanCompared op)
  else
    (left.ordering right).map fun o => bool (op.holds o)

end Value

end Reckon
