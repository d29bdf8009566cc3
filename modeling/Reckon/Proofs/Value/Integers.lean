import Reckon.Proofs.Value.Failure

/-!
Operations on integers of 64 bits.

What an operation yields on integers of any size is told by equations, also
for a division, whose rest is smaller than the divisor and has the sign of
the dividend. On 64 bits it comes to the same as long as the result is in
range.

* `InRange`: the range of 64 bits;
* `ArithOp.Yields`: what an operation yields, and `ArithOp.yields_iff`: it is
  what is computed;
* `ArithOp.applyInt_eq_ok_iff`, `ArithOp.fails_applyInt_zeroDivision_iff` and
  `ArithOp.fails_applyInt_overflow_iff`: the operation on 64 bits.
-/

namespace Reckon

/-! ### The range of 64 bits -/

/-- The integer is in the range of 64 bits, which goes from `-2 ^ 63` to `2 ^ 63 - 1`. -/
def InRange (n : Int) : Prop := -9223372036854775808 ≤ n ∧ n ≤ 9223372036854775807

instance : DecidablePred InRange := fun n =>
  inferInstanceAs (Decidable (-9223372036854775808 ≤ n ∧ n ≤ 9223372036854775807))

/-- What 64 bits hold is in range. -/
lemma inRange_toInt (n : Int64) : InRange n.toInt :=
  ⟨n.minValue_le_toInt, n.toInt_le⟩

lemma not_inRange_of_fit?_eq_none {n : Int} (h : fit? n = none) : ¬ InRange n := by
  intro hn
  have hfits : Int64.minValue.toInt ≤ n ∧ n ≤ Int64.maxValue.toInt := hn
  rw [fit?, if_pos hfits] at h
  cases h

lemma toInt_eq_zero_iff {n : Int64} : n.toInt = 0 ↔ n = 0 := by
  rw [← Int64.toInt_zero, Int64.toInt_inj]

/-! ### Results of any size -/

namespace ArithOp

variable {op : ArithOp} {l r z : Int} {m n k : Int64}

/-- The operation yields `z` on integers of any size. The quotient of a division leaves a rest that
is smaller than the divisor, and is zero or has the sign of the dividend. -/
def Yields : ArithOp → Int → Int → Int → Prop
  | add, l, r, z => z = l + r
  | sub, l, r, z => z = l - r
  | mul, l, r, z => z = l * r
  | div, l, r, q =>
      ∃ rest, l = q * r + rest ∧ rest.natAbs < r.natAbs ∧ (rest = 0 ∨ rest.sign = l.sign)

/-- Such a quotient is the one that is rounded toward zero. -/
lemma yields_div_iff : div.Yields l r z ↔ r ≠ 0 ∧ z = l.tdiv r := by
  constructor
  · rintro ⟨rest, hl, hrest, hsign⟩
    have hr : r ≠ 0 := by
      rintro rfl
      exact Nat.not_lt_zero _ hrest
    have hl' : rest + r * z = l := by rw [hl, Int.mul_comm, Int.add_comm]
    refine ⟨hr, ?_⟩
    -- Quotients are unique among those with a rest of one sign, which is that of the dividend.
    rcases Int.le_total 0 l with hnonneg | hnonpos
    · have hle : 0 ≤ rest := by
        rcases hsign with rfl | hsign
        · exact Int.le_refl 0
        · rwa [← Int.sign_nonneg_iff, hsign, Int.sign_nonneg_iff]
      exact (((Int.tdiv_tmod_unique hnonneg hr).2 ⟨hl', hle, by omega⟩).1).symm
    · have hle : rest ≤ 0 := by
        rcases hsign with rfl | hsign
        · exact Int.le_refl 0
        · rwa [← Int.sign_nonpos_iff, hsign, Int.sign_nonpos_iff]
      exact (((Int.tdiv_tmod_unique' hnonpos hr).2 ⟨hl', by omega, hle⟩).1).symm
  · rintro ⟨hr, rfl⟩
    refine ⟨l.tmod r, ?_, ?_, ?_⟩
    · rw [Int.mul_comm, Int.mul_tdiv_add_tmod]
    · rw [Int.natAbs_tmod]
      exact Nat.mod_lt _ (Int.natAbs_pos.2 hr)
    · rw [← Int.sign_eq_zero_iff_zero, Int.sign_tmod]
      split_ifs <;> simp

/-- **What is yielded is what is computed**, unless it is divided by zero. -/
lemma yields_iff : op.Yields l r z ↔ ¬ (op = .div ∧ r = 0) ∧ z = op.exact l r := by
  cases op with
  | add | sub | mul => simp [Yields, exact]
  | div => simp [yields_div_iff, exact]

/-! ### The operation on 64 bits -/

lemma fails_applyInt_zeroDivision_iff :
    Fails .zeroDivision (op.applyInt m n) ↔ op = .div ∧ n = 0 := by
  rw [applyInt]
  split_ifs with h
  · exact iff_of_true (fails_error.2 rfl) h
  · refine iff_of_false ?_ h
    cases fit? (op.exact m.toInt n.toInt) <;> simp [Error.kind]

lemma fails_applyInt_overflow_iff :
    Fails .overflow (op.applyInt m n) ↔ ∃ z, op.Yields m.toInt n.toInt z ∧ ¬ InRange z := by
  simp only [yields_iff, toInt_eq_zero_iff]
  rw [applyInt]
  split_ifs with h
  · simp [h, Error.kind]
  · cases hfit : fit? (op.exact m.toInt n.toInt) with
    | none =>
        exact iff_of_true (fails_error.2 rfl) ⟨_, ⟨h, rfl⟩, not_inRange_of_fit?_eq_none hfit⟩
    | some k =>
        refine iff_of_false (not_fails_ok _ _) ?_
        rintro ⟨z, ⟨-, rfl⟩, hz⟩
        exact hz (fit?_eq_some_iff.1 hfit ▸ inRange_toInt k)

lemma applyInt_eq_ok_iff : op.applyInt m n = .ok k ↔ op.Yields m.toInt n.toInt k.toInt := by
  rw [yields_iff, toInt_eq_zero_iff, applyInt]
  split_ifs with h
  · simp [h]
  · rw [← fit?_eq_some_iff]
    cases fit? (op.exact m.toInt n.toInt) <;> simp [h]

end ArithOp

end Reckon
