import Reckon.Proofs.Decimal.Integers
import Reckon.Proofs.Value.Integers

/-!
Doubles and how they compare.

What is not a number has no order to anything; all other doubles are ordered.
The two zeros are equal and no other double equals them. An integer is
promoted to a finite double, and to a zero only if it is zero.

* `floatOrdering_eq_compare` and `floatOrdering_eq_none_iff`: the ordering of
  two doubles;
* `not_lt_of_isNaN` and `not_le_of_isNaN`: what is not a number is below
  nothing;
* `beq_zero_iff`, `not_isNaN_of_isInf` and `isFinite_iff`: the zeros, the
  infinite and the finite doubles;
* `isFinite_ofInt` and `ofInt_beq_zero_iff`: promoted integers;
* `ArithOp.YieldsDouble`: what an operation yields on doubles.
-/

namespace Reckon

open Float.Model Float.Model.UnpackedFloat

variable {x y : Float}

/-! ### Order -/

lemma compare_swap (u v : UnpackedFloat) : v.compare u = (u.compare v).map Ordering.swap := by
  cases u <;> cases v
  -- Only two finite numbers are compared by more than their signs.
  case finite.finite s m e hm t m' e' hm' =>
    have hswap : (compare e' e).then (compare m' m) =
        ((compare e e').then (compare m m')).swap := by
      rw [Ordering.swap_then, ← Std.OrientedCmp.eq_swap, ← Std.OrientedCmp.eq_swap]
    cases s <;> cases t
    case positive.negative | negative.positive => rfl
    case positive.positive => exact congrArg some hswap
    case negative.negative => exact congrArg (some ·.swap) hswap
  case infinity.infinity s t | infinity.zero s t | infinity.finite s t _ _ _ | zero.infinity s t
      | zero.finite s t _ _ _ | finite.infinity s _ _ _ t | finite.zero s _ _ _ t =>
    cases s <;> cases t <;> rfl
  all_goals rfl

lemma compare_eq_none_iff (u v : UnpackedFloat) :
    u.compare v = none ↔ u = .notANumber ∨ v = .notANumber := by
  fun_cases UnpackedFloat.compare u v <;> simp_all

lemma isNaN_iff_unpack : x.isNaN = true ↔ x.toModel.unpack = .notANumber := by
  show x.toModel.unpack.isNaN = true ↔ _
  rw [isNaN_iff]

lemma decide_le (x y : Float) :
    decide (x ≤ y) = (x.toModel.unpack.compare y.toModel.unpack).any (·.isLE) := by
  show decide (decide ((x.toModel.unpack.compare y.toModel.unpack).any (·.isLE) = true) = true) = _
  rw [Bool.decide_eq_true, Bool.decide_eq_true]

/-- The ordering of two doubles is that of what they are unpacked to. -/
lemma floatOrdering_eq_compare (x y : Float) :
    floatOrdering x y = x.toModel.unpack.compare y.toModel.unpack := by
  rw [floatOrdering, decide_le, decide_le, compare_swap x.toModel.unpack y.toModel.unpack]
  rcases x.toModel.unpack.compare y.toModel.unpack with - | (- | - | -) <;> rfl

/-- **Two doubles have no order** exactly if one of them is not a number. -/
lemma floatOrdering_eq_none_iff : floatOrdering x y = none ↔ x.isNaN ∨ y.isNaN := by
  rw [floatOrdering_eq_compare, compare_eq_none_iff, isNaN_iff_unpack, isNaN_iff_unpack]

lemma compare_eq_none_of_isNaN (hx : x.isNaN) (y : Float) :
    x.toModel.unpack.compare y.toModel.unpack = none :=
  (compare_eq_none_iff _ _).2 (.inl (isNaN_iff_unpack.1 hx))

lemma not_le_of_isNaN (hx : x.isNaN) (y : Float) : ¬ x ≤ y := by
  rw [← decide_eq_false_iff_not, decide_le, compare_eq_none_of_isNaN hx]
  rfl

lemma not_lt_of_isNaN (hx : x.isNaN) (y : Float) : ¬ x < y := by
  have hlt : UnpackedFloat.lt x.toModel.unpack y.toModel.unpack = false := by
    rw [UnpackedFloat.lt, compare_eq_none_of_isNaN hx]
    rfl
  intro h
  have hlt' : UnpackedFloat.lt x.toModel.unpack y.toModel.unpack = true := of_decide_eq_true h
  rw [hlt] at hlt'
  cases hlt'

/-! ### Zeros, and doubles that are not finite -/

/-- **The zeros** are the doubles that equal zero. -/
lemma beq_zero_iff : (x == 0.0) = true ↔ x = 0.0 ∨ x = -0.0 := by
  have hzero : (0.0 : Float) = 0 := rfl
  have hnan : (0 : Float) ≠ Float.nan := by decide
  have hnan' : (-0 : Float) ≠ Float.nan := by decide
  have hne : (0 : Float) ≠ -0 := by decide
  rw [hzero, Float.beq_iff_ne_nan_and_eq]
  constructor
  · rintro ⟨-, -, h | h | h⟩
    · exact .inl h
    · exact absurd h.2 hne
    · exact .inr h.1
  · rintro (rfl | rfl)
    · exact ⟨hnan, hnan, .inl rfl⟩
    · exact ⟨hnan', hnan, .inr (.inr ⟨rfl, rfl⟩)⟩

lemma not_beq_zero_of_isNaN (hx : x.isNaN) : ¬ (x == 0.0) = true := by
  intro h
  rcases beq_zero_iff.1 h with rfl | rfl
  · exact absurd hx (by decide)
  · exact absurd hx (by decide)

/-- What is infinite is a number. -/
lemma not_isNaN_of_isInf (hx : x.isInf) : ¬ x.isNaN := by
  revert hx
  show x.toModel.unpack.isInf → ¬ x.toModel.unpack.isNaN
  cases x.toModel.unpack <;> simp [UnpackedFloat.isInf, UnpackedFloat.isNaN]

/-- A double is finite unless it is infinite or not a number. -/
lemma isFinite_iff : x.isFinite ↔ ¬ x.isNaN ∧ ¬ x.isInf := by
  show x.toModel.unpack.isFinite ↔ ¬ x.toModel.unpack.isNaN ∧ ¬ x.toModel.unpack.isInf
  cases x.toModel.unpack <;>
    simp [UnpackedFloat.isFinite, UnpackedFloat.isNaN, UnpackedFloat.isInf]

/-! ### Integers of 64 bits -/

lemma natAbs_toInt_lt (n : Int64) : n.toInt.natAbs < 2 ^ 64 := by
  obtain ⟨hge, hle⟩ := inRange_toInt n
  omega

lemma unpack_ofInt_zero : (Float.ofInt 0).toModel.unpack = .zero .positive := by rfl

/-- A promoted integer is finite. -/
lemma isFinite_ofInt (n : Int64) : (Float.ofInt n.toInt).isFinite := by
  show (Float.ofInt n.toInt).toModel.unpack.isFinite
  by_cases hn : n.toInt = 0
  · rw [hn, unpack_ofInt_zero]
    rfl
  · obtain ⟨sign, m, e, h, hunpack⟩ := Decimal.exists_unpack_ofInt hn (natAbs_toInt_lt n)
    rw [hunpack]
    rfl

/-- A promoted integer is a zero exactly if it is zero. -/
lemma ofInt_beq_zero_iff (n : Int64) : (Float.ofInt n.toInt == 0.0) = true ↔ n = 0 := by
  constructor
  · intro h
    by_contra hn
    obtain ⟨sign, m, e, h', hunpack⟩ :=
      Decimal.exists_unpack_ofInt (toInt_eq_zero_iff.not.2 hn) (natAbs_toInt_lt n)
    rcases beq_zero_iff.1 h with hzero | hzero <;> rw [hzero] at hunpack <;> cases hunpack
  · rintro rfl
    rfl

/-! ### Operations -/

namespace ArithOp

/-- The operation yields `z` on doubles, which are added, subtracted, multiplied and divided as the
standard of floating-point arithmetic has it. -/
def YieldsDouble : ArithOp → Float → Float → Float → Prop
  | add, x, y, z => z = x + y
  | sub, x, y, z => z = x - y
  | mul, x, y, z => z = x * y
  | div, x, y, z => z = x / y

/-- What is yielded is what is computed. -/
lemma yieldsDouble_iff {op : ArithOp} {z : Float} : op.YieldsDouble x y z ↔ z = op.float x y := by
  cases op <;> rfl

end ArithOp

end Reckon
