import Reckon.Proofs.Value.Promotion

/-!
What arithmetic comes to.

Operands are looked at in a fixed order: a truth value among them is refused
first, then a division by zero, and then an integer result that is out of
range. Everything else has a result, an integer if both operands are
integers, and else a double.

* `Value.apply_of_isBool`, `Value.apply_integers` and `Value.apply_doubles`:
  the operation for each way to operate on two values;
* `Value.apply_eq_ok_iff` and the lemmas on the kinds of failure: when an
  operation comes to what;
* `Value.apply_classified`: the main statement.
-/

namespace Reckon

namespace Value

variable {op : ArithOp} {u v w : Value} {x y z : Float} {m n : Int64}

/-! ### One operation for each kind of operands -/

lemma apply_of_isBool (op : ArithOp) (h : v.IsBool ∨ w.IsBool) :
    v.apply op w = .error .booleanOperand := by
  cases v <;> cases w
  case int.int | int.float | float.int | float.float => exact (h.elim id id).elim
  all_goals rfl

lemma apply_integers (op : ArithOp) (m n : Int64) :
    (int m).apply op (int n) = int <$> op.applyInt m n := rfl

lemma apply_doubles (op : ArithOp) (h : v.IsFloat ∨ w.IsFloat) (hv : v.asFloat = .ok x)
    (hw : w.asFloat = .ok y) : v.apply op w = float <$> op.applyFloat x y := by
  cases v <;> cases w <;> cases hv <;> cases hw
  case int.int => exact (h.elim id id).elim
  all_goals rfl

lemma fails_applyFloat_zeroDivision_iff :
    Fails .zeroDivision (op.applyFloat x y) ↔ op = .div ∧ (y == 0.0) = true := by
  rw [ArithOp.applyFloat]
  split_ifs with h
  · exact iff_of_true (fails_error.2 rfl) h
  · exact iff_of_false (not_fails_ok _ _) h

lemma applyFloat_eq_ok_iff :
    op.applyFloat x y = .ok z ↔ ¬ (op = .div ∧ (y == 0.0) = true) ∧ op.YieldsDouble x y z := by
  rw [ArithOp.applyFloat, ArithOp.yieldsDouble_iff]
  split_ifs with h
  · simp [h]
  · rw [Except.ok.injEq, and_iff_right h]
    exact eq_comm

/-! ### When an operation comes to what -/

lemma not_isBool_of_asFloats (h : v.asFloat = .ok x) (h' : w.asFloat = .ok y) :
    ¬ (v.IsBool ∨ w.IsBool) :=
  not_or.2 ⟨not_isBool_of_asFloat h, not_isBool_of_asFloat h'⟩

lemma fails_apply_type_iff : Fails .type (v.apply op w) ↔ v.IsBool ∨ w.IsBool := by
  cases operands v w with
  | refused h =>
      rw [apply_of_isBool op h]
      exact iff_of_true (fails_error.2 rfl) h
  | integers m n =>
      rw [apply_integers, fails_map]
      exact iff_of_false ((failsWithin_applyInt op m n).not_fails (by simp)) (by simp [IsBool])
  | doubles h hv hw =>
      rw [apply_doubles op h hv hw, fails_map]
      exact iff_of_false ((failsWithin_applyFloat op _ _).not_fails (by simp))
        (not_isBool_of_asFloats hv hw)

lemma fails_apply_zeroDivision_iff : Fails .zeroDivision (v.apply op w) ↔
    ¬ v.IsBool ∧ ¬ w.IsBool ∧ op = .div ∧ w.IsZero := by
  rw [← and_assoc, ← not_or]
  cases operands v w with
  | refused h =>
      rw [apply_of_isBool op h]
      exact iff_of_false (by simp [Error.kind]) fun h' => h'.1 h
  | integers m n =>
      rw [apply_integers, fails_map, ArithOp.fails_applyInt_zeroDivision_iff]
      simp [IsBool, IsZero]
  | doubles h hv hw =>
      rw [apply_doubles op h hv hw, fails_map, fails_applyFloat_zeroDivision_iff,
        beq_zero_iff_isZero hw]
      exact (and_iff_right (not_isBool_of_asFloats hv hw)).symm

lemma fails_apply_overflow_iff : Fails .overflow (v.apply op w) ↔
    ∃ m n z, v = .int m ∧ w = .int n ∧ op.Yields m.toInt n.toInt z ∧ ¬ InRange z := by
  cases operands v w with
  | refused h =>
      rw [apply_of_isBool op h]
      refine iff_of_false (by simp [Error.kind]) ?_
      rintro ⟨m, n, z, rfl, rfl, -⟩
      exact (h.elim id id).elim
  | integers m n =>
      rw [apply_integers, fails_map, ArithOp.fails_applyInt_overflow_iff]
      simp
  | doubles h hv hw =>
      rw [apply_doubles op h hv hw, fails_map]
      refine iff_of_false ((failsWithin_applyFloat op _ _).not_fails (by simp)) ?_
      rintro ⟨m, n, z, rfl, rfl, -⟩
      exact (h.elim id id).elim

lemma apply_eq_ok_iff : v.apply op w = .ok u ↔
    (∃ m n k, v = .int m ∧ w = .int n ∧ op.Yields m.toInt n.toInt k.toInt ∧ u = .int k) ∨
      ∃ x y z, (v.IsFloat ∨ w.IsFloat) ∧ v.asFloat = .ok x ∧ w.asFloat = .ok y ∧
        ¬ (op = .div ∧ w.IsZero) ∧ op.YieldsDouble x y z ∧ u = .float z := by
  cases operands v w with
  | refused h =>
      rw [apply_of_isBool op h]
      refine iff_of_false (by simp) ?_
      rintro (⟨m, n, k, rfl, rfl, -⟩ | ⟨x, y, z, -, hv, hw, -⟩)
      · exact (h.elim id id).elim
      · exact not_isBool_of_asFloats hv hw h
  | integers m n =>
      simp [apply_integers, map_eq_ok_iff, ArithOp.applyInt_eq_ok_iff, IsFloat]
  | doubles h hv hw =>
      simp only [apply_doubles op h hv hw, map_eq_ok_iff, applyFloat_eq_ok_iff,
        beq_zero_iff_isZero hw]
      constructor
      · rintro ⟨z, ⟨hzero, hz⟩, rfl⟩
        exact .inr ⟨_, _, z, h, hv, hw, hzero, hz, rfl⟩
      · rintro (⟨m, n, k, rfl, rfl, -⟩ | ⟨x, y, z, -, hv', hw', hzero, hz, rfl⟩)
        · exact (h.elim id id).elim
        · cases hv.symm.trans hv'
          cases hw.symm.trans hw'
          exact ⟨z, ⟨hzero, hz⟩, rfl⟩

lemma existsUnique_yields_iff {l r : Int} : (∃! z, op.Yields l r z) ↔ ¬ (op = .div ∧ r = 0) := by
  simp only [ArithOp.yields_iff]
  constructor
  · rintro ⟨z, ⟨h, -⟩, -⟩
    exact h
  · intro h
    exact ⟨_, ⟨h, rfl⟩, fun z hz => hz.2⟩

/-- **Arithmetic classified**: an operation fails with a type error exactly if a truth value is
among its operands, even if it divides by zero. Otherwise it fails with a division by zero exactly
if it divides by one of the three zeros, and with an overflow exactly if it yields an integer from
two integers that is out of range. There are no other failures. Where it does not fail, it comes
to the integer that it yields from two integers, of which there is one unless it divides by zero,
and if a double is among the operands to the double that it yields from both of them as
doubles. -/
theorem apply_classified (op : ArithOp) (v w : Value) :
    (Fails .type (v.apply op w) ↔ v.IsBool ∨ w.IsBool) ∧
      (Fails .zeroDivision (v.apply op w) ↔
        ¬ v.IsBool ∧ ¬ w.IsBool ∧ op = .div ∧ w.IsZero) ∧
      (Fails .overflow (v.apply op w) ↔
        ∃ m n z, v = .int m ∧ w = .int n ∧ op.Yields m.toInt n.toInt z ∧ ¬ InRange z) ∧
      (∀ kind, Fails kind (v.apply op w) → kind ∈ [.zeroDivision, .overflow, .type]) ∧
      (∀ u, v.apply op w = .ok u ↔
        (∃ m n k, v = .int m ∧ w = .int n ∧ op.Yields m.toInt n.toInt k.toInt ∧ u = .int k) ∨
          ∃ x y z, (v.IsFloat ∨ w.IsFloat) ∧ v.asFloat = .ok x ∧ w.asFloat = .ok y ∧
            ¬ (op = .div ∧ w.IsZero) ∧ op.YieldsDouble x y z ∧ u = .float z) ∧
      ∀ l r, (∃! z, op.Yields l r z) ↔ ¬ (op = .div ∧ r = 0) := by
  refine ⟨fails_apply_type_iff, fails_apply_zeroDivision_iff, fails_apply_overflow_iff, ?_,
    fun u => apply_eq_ok_iff, fun l r => existsUnique_yields_iff⟩
  rintro kind ⟨e, he, rfl⟩
  exact failsWithin_apply op v w e he

/-- The quotient of the least integer and minus one is out of range. As a double it has a value. -/
example : (int Int64.minValue).apply .div (int (-1)) =
      .error (.integerOverflow Int64.minValue .div (-1)) ∧
    (int Int64.minValue).apply .div (float (-1.0)) = .ok (float 9223372036854775808.0) := by
  decide +kernel

end Value

end Reckon
