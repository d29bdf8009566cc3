import Reckon.Proofs.Value.Doubles

/-!
Operands, and how integers are promoted.

Two operands are refused if a truth value is among them. Two integers are
left as they are, and if a double is among two numbers, then both are taken
as doubles. Promotion keeps what operations ask about a number.

* `Value.IsFloat`, `Value.IsZero`, `Value.IsNaN` and `Value.IsFinite`: what
  is asked about a value;
* `Value.Operands` and `Value.operands`: the three ways to operate on two
  values;
* `Value.beq_zero_iff_isZero`, `Value.isNaN_iff_isNaN` and
  `Value.isFinite_iff_isFinite`: a number and the double it is taken as.
-/

namespace Reckon

namespace Value

variable {v w : Value} {x y : Float}

/-! ### Kinds of numbers -/

/-- The value is a double. -/
def IsFloat : Value → Prop
  | float _ => True
  | _ => False

/-- The value is a zero, of which there are three. -/
def IsZero : Value → Prop
  | int n => n = 0
  | float x => x = 0.0 ∨ x = -0.0
  | bool _ => False

/-- The value is a double that is not a number. -/
def IsNaN : Value → Prop
  | float x => x.isNaN
  | _ => False

/-- The value is an integer or a finite double. -/
def IsFinite : Value → Prop
  | int _ => True
  | float x => x.isFinite
  | bool _ => False

/-! ### Promotion -/

lemma asFloat_of_isBool (h : v.IsBool) : v.asFloat = .error .booleanOperand := by
  cases v with
  | bool b => rfl
  | int n => exact h.elim
  | float x => exact h.elim

lemma not_isBool_of_asFloat (h : v.asFloat = .ok x) : ¬ v.IsBool := by
  intro hbool
  rw [asFloat_of_isBool hbool] at h
  cases h

lemma beq_zero_iff_isZero (h : v.asFloat = .ok x) : (x == 0.0) = true ↔ v.IsZero := by
  cases v with
  | int n =>
      cases h
      exact ofInt_beq_zero_iff n
  | float x =>
      cases h
      exact beq_zero_iff
  | bool b => cases h

lemma isFinite_iff_isFinite (h : v.asFloat = .ok x) : x.isFinite ↔ v.IsFinite := by
  cases v with
  | int n =>
      cases h
      exact iff_of_true (isFinite_ofInt n) trivial
  | float x =>
      cases h
      exact Iff.rfl
  | bool b => cases h

lemma isNaN_iff_isNaN (h : v.asFloat = .ok x) : x.isNaN ↔ v.IsNaN := by
  cases v with
  | int n =>
      cases h
      exact iff_of_false (isFinite_iff.1 (isFinite_ofInt n)).1 id
  | float x =>
      cases h
      exact Iff.rfl
  | bool b => cases h

/-! ### Two operands -/

/-- The three ways to operate on two values. -/
inductive Operands : Value → Value → Prop
  /-- A truth value is among them. -/
  | refused {v w : Value} (h : v.IsBool ∨ w.IsBool) : Operands v w
  | integers (m n : Int64) : Operands (int m) (int n)
  /-- A double is among them, and both are taken as doubles. -/
  | doubles {v w : Value} {x y : Float} (h : v.IsFloat ∨ w.IsFloat) (hv : v.asFloat = .ok x)
      (hw : w.asFloat = .ok y) : Operands v w

/-- Any two values are operated on in one of these ways. -/
lemma operands (v w : Value) : Operands v w := by
  cases v with
  | bool b => exact .refused (.inl trivial)
  | int m =>
      cases w with
      | bool b => exact .refused (.inr trivial)
      | int n => exact .integers m n
      | float y => exact .doubles (.inr trivial) rfl rfl
  | float x =>
      cases w with
      | bool b => exact .refused (.inr trivial)
      | int n => exact .doubles (.inl trivial) rfl rfl
      | float y => exact .doubles (.inl trivial) rfl rfl

end Value

end Reckon
