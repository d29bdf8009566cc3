import Reckon.Decimal.Reading
import Reckon.Proofs.Decimal.Doubles

/-!
Decimals that read back as a double.

A decimal is read by dividing its digits by a power of ten. Where both are
doubles they are divided as doubles; else they are divided as natural
numbers. Either way the double in whose cell the decimal lies comes out.

* `Represents.div_eq`: the quotient of two doubles;
* `represents_toFloat` and `represents_powerOfTen`: the digits of a short
  decimal and the small powers of ten are doubles;
* `ofScientific_neg`: what is divided otherwise;
* `Represents.nearest_eq`: the main statement.
-/

namespace Reckon.Decimal

open Float.Model Float.Model.UnpackedFloat

variable {x y z : Float} {m n m₁ m₂ : ℕ} {e e₁ e₂ : ℤ} {count : ℕ} {digits : List Char}

/-- What is packed represents its number. -/
lemma Normal.represents (h : Normal m e) :
    Represents (.ofModel (.pack (.finite .positive m e h.pos))) m e := ⟨h, h.unpack_pack⟩

/-- A double is the quotient of doubles whose exact quotient lies in its cell. -/
lemma Represents.div_eq (hx : Represents x m e) (hy : Represents y m₁ e₁) (hz : Represents z m₂ e₂)
    (hcovers : (Cell.ofBinary m e).Covers (m₁ * 2 ^ e₁ / (m₂ * 2 ^ e₂))) : y / z = x := by
  rw [hx.eq_pack]
  show Float.ofModel
    (.pack (UnpackedFloat.div Format.binary64 y.toModel.unpack z.toModel.unpack)) = _
  rw [hy.unpack, hz.unpack, div_eq_of_covers hx.normal hy.normal.pos hz.normal.pos hcovers]

/-! ### Natural numbers as doubles -/

/-- A number of fifty-three places is rounded to itself. -/
lemma Normal.roundWithAccuracy_exact (h : Normal m e) (sign : Sign) :
    roundWithAccuracy Format.binary64 sign m e .exact = .finite sign m e h.pos := by
  have hlog : m.log2 = 52 + 0 := (Nat.log2_eq_iff h.pos.ne').2 ⟨h.le, h.lt⟩
  have hleast := h.least
  have hshift : shiftToTargetExponent Format.binary64 m e .exact =
      (quotient m (2 ^ 0), e + (0 : ℕ)) := shiftToTargetExponent_exact hlog (by omega)
  rw [Nat.cast_zero, add_zero] at hshift
  have hround : (quotient m (2 ^ 0)).roundedMantissa = m :=
    roundedMantissa_quotient Nat.one_pos ⟨by omega, by omega, fun _ => by omega⟩
  exact roundWithAccuracy_eq hshift hround hshift (Nat.div_one m) h.pos sign

/-- Zeros behind a number make it longer. -/
lemma log2_mul_two_pow (hn : n ≠ 0) (k : ℕ) : (n * 2 ^ k).log2 = n.log2 + k := by
  rw [Nat.log2_eq_iff (Nat.mul_ne_zero hn (Nat.two_pow_pos k).ne'), pow_add, Nat.add_right_comm,
    pow_add]
  exact ⟨Nat.mul_le_mul_right _ (Nat.log2_self_le hn),
    Nat.mul_lt_mul_of_pos_right Nat.lt_log2_self (Nat.two_pow_pos k)⟩

/-- Every natural number of at most fifty-three places is a double: its digits are followed by
zeros up to the fifty-third place. -/
lemma represents_toFloat (hpos : 0 < n) (hlt : n < 2 ^ 53) :
    ∃ m e, Represents n.toUInt64.toFloat m e ∧ (n : ℚ) = m * 2 ^ e := by
  have hlog : n.log2 < 53 := (Nat.log2_lt hpos.ne').2 hlt
  obtain ⟨k, hk⟩ : ∃ k, 52 = n.log2 + k := ⟨52 - n.log2, by omega⟩
  have hnormal : Normal (n * 2 ^ k) (-k) := by
    have hplaces : (n * 2 ^ k).log2 = 52 := by rw [log2_mul_two_pow hpos.ne', hk]
    obtain ⟨hle, hlt'⟩ :=
      (Nat.log2_eq_iff (Nat.mul_pos hpos (Nat.two_pow_pos k)).ne').1 hplaces
    exact ⟨hle, hlt', by omega, by omega⟩
  have htarget : Format.binary64.targetExponent (totalExponent n 0) = -k := by
    rw [targetExponent_binary64, totalExponent]
    omega
  have hround : UnpackedFloat.round Format.binary64 .positive n 0 =
      .finite .positive (n * 2 ^ k) (-k) hnormal.pos := by
    rw [UnpackedFloat.round, htarget, decreaseExponent]
    simp only [sub_neg_eq_add, zero_add, Int.toNat_natCast, zero_sub, Nat.shiftLeft_eq]
    exact hnormal.roundWithAccuracy_exact .positive
  have hfloat : n.toUInt64.toFloat =
      .ofModel (.pack (.finite .positive (n * 2 ^ k) (-k) hnormal.pos)) := by
    have hnat : (UInt64.ofNat n).toNat = n := by
      rw [UInt64.toNat_ofNat']
      omega
    have hgt : compare (n : ℤ) 0 = .gt := Int.compare_eq_gt.2 (by omega)
    show Float.ofModel (.pack
      (UnpackedFloat.normalize Format.binary64 (UInt64.ofNat n).toNat 0 .positive)) = _
    rw [hnat, UnpackedFloat.normalize, hgt]
    exact congrArg (fun u => Float.ofModel (.pack u)) hround
  refine ⟨_, _, hfloat ▸ hnormal.represents, ?_⟩
  rw [zpow_neg, zpow_natCast]
  push_cast
  field_simp

/-- The power of five in a power of ten, with zeros behind it up to the fifty-third place. -/
def powerSignificand (count : ℕ) : ℕ := 5 ^ count * 2 ^ (52 - (5 ^ count).log2)

lemma powerSignificand_pos (count : ℕ) : 0 < powerSignificand count :=
  Nat.mul_pos (Nat.pow_pos (by norm_num)) (Nat.two_pow_pos _)

/-- The exponent that goes with it, which makes up for the zeros. -/
def powerExponent (count : ℕ) : ℤ := count + (5 ^ count).log2 - 52

lemma powerOfTen_eq : ∀ i : Fin Float.exactlyRepresentablePowersOfTen.size,
    (5 ^ i.val).log2 ≤ 52 ∧ 2 ^ 52 ≤ powerSignificand i ∧ powerSignificand i < 2 ^ 53 ∧
      Float.exactlyRepresentablePowersOfTen[i] =
        .ofModel (.pack (.finite .positive (powerSignificand i) (powerExponent i)
          (powerSignificand_pos i))) := by decide +kernel

/-- The powers of ten up to the twenty-second are doubles. -/
lemma represents_powerOfTen (hcount : count < Float.exactlyRepresentablePowersOfTen.size) :
    ∃ m e, Represents Float.exactlyRepresentablePowersOfTen[count] m e ∧
      (10 ^ count : ℚ) = m * 2 ^ e := by
  have hsize : count < 23 := hcount
  obtain ⟨hlog, hle, hlt, hpower⟩ := powerOfTen_eq ⟨count, hcount⟩
  simp only [Fin.getElem_fin] at hlog hle hlt hpower
  have hnormal : Normal (powerSignificand count) (powerExponent count) :=
    ⟨hle, hlt, by rw [powerExponent]; omega, by rw [powerExponent]; omega⟩
  refine ⟨_, _, hpower ▸ hnormal.represents, ?_⟩
  have hten : (10 : ℚ) ^ count = 5 ^ count * 2 ^ count := by
    rw [← mul_pow]
    norm_num
  rw [hten, powerSignificand, powerExponent]
  push_cast
  rw [mul_assoc, ← zpow_eq_pow_mul two_ne_zero (j := count) (by omega), zpow_natCast]

/-! ### Decimals -/

variable {v : ℚ}

/-- The numbers in the cell of a normal double are no smaller than the normal doubles. -/
lemma Normal.lt_covered (h : Normal m e) (hcovers : (Cell.ofBinary m e).Covers v) :
    2 ^ (-1075 : ℤ) < v := by
  have hle : (Cell.ofBinary m e).low * 2 ^ (e - 2) ≤ v := hcovers.low_le
  have hlow : 1 < (Cell.ofBinary m e).low := by
    have hm := h.le
    simp only [Cell.ofBinary]
    split <;> omega
  have hleast := h.least
  calc (2 : ℚ) ^ (-1075 : ℤ) ≤ 2 ^ (e - 2) := zpow_le_zpow_right₀ (by norm_num) (by omega)
    _ < (Cell.ofBinary m e).low * 2 ^ (e - 2) :=
      lt_mul_of_one_lt_left (by positivity) (by exact_mod_cast hlow)
    _ ≤ v := hle

/-- The model of reading divides natural numbers. -/
lemma ofScientific_neg (hn : 0 < n) (hcount : 0 < count) (hle : count ≤ 2048 + n.log2) :
    UnpackedFloat.ofScientific Format.binary64 n (-count) =
      UnpackedFloat.div Format.binary64 (.finite .positive n 0 hn)
        (.finite .positive (10 ^ count) 0 (Nat.pow_pos (Nat.succ_pos 9))) := by
  have hlarge : ¬ (-count : ℤ) > 2 ^ Format.binary64.exponentBits := by
    show ¬ (-count : ℤ) > 2048
    omega
  have hsmall : ¬ (-count : ℤ) < -((2 ^ Format.binary64.exponentBits : ℤ) + n.log2) := by
    show ¬ (-count : ℤ) < -(2048 + n.log2)
    omega
  have hnegative : ¬ 0 ≤ (-count : ℤ) := by omega
  rw [UnpackedFloat.ofScientific, dif_neg hn.ne', if_neg hlarge, if_neg hsmall, if_neg hnegative]
  simp only [neg_neg, Int.toNat_natCast]

/-- **A decimal is read** as the double in whose cell it lies. -/
lemma Represents.nearest_eq (h : Represents x m e) (hcount : 0 < count)
    (hcovers : (Cell.ofBinary m e).Covers (value digits / 10 ^ count)) :
    nearest digits (-count) = x := by
  have hten : (0 : ℚ) < 10 ^ count := by positivity
  have hleast := h.normal.lt_covered hcovers
  have hpos : 0 < value digits := by
    have hv : (0 : ℚ) < value digits / 10 ^ count := lt_trans (by positivity) hleast
    rw [lt_div_iff₀ hten, zero_mul] at hv
    exact_mod_cast hv
  have hneg : (-count : ℤ) < 0 := by omega
  rw [nearest, Int.natAbs_neg, Int.natAbs_natCast, decide_eq_true hneg, Float.ofScientific]
  split
  case isTrue hfast =>
    -- Both the digits and the power of ten are doubles.
    have hsize : count < Float.exactlyRepresentablePowersOfTen.size := Nat.lt_succ_of_le hfast.2
    obtain ⟨m₁, e₁, hdigits, hvalue⟩ := represents_toFloat hpos hfast.1
    obtain ⟨m₂, e₂, hpower, hpowerValue⟩ := represents_powerOfTen hsize
    rw [hvalue, hpowerValue] at hcovers
    exact h.div_eq hdigits hpower hcovers
  case isFalse hslow =>
    -- The decimal is not so small that it is taken for zero.
    have hle : count ≤ 2048 + (value digits).log2 := by
      rw [lt_div_iff₀ hten, zpow_neg, inv_mul_lt_iff₀ (by positivity)] at hleast
      have hpower : 10 ^ count < 2 ^ 1075 * value digits := by exact_mod_cast hleast
      have hbound : 2 ^ count < 2 ^ (1075 + ((value digits).log2 + 1)) :=
        calc 2 ^ count ≤ 10 ^ count := Nat.pow_le_pow_left (by norm_num) count
          _ < 2 ^ 1075 * value digits := hpower
          _ ≤ 2 ^ 1075 * 2 ^ ((value digits).log2 + 1) :=
            Nat.mul_le_mul_left _ Nat.lt_log2_self.le
          _ = 2 ^ (1075 + ((value digits).log2 + 1)) := (pow_add _ _ _).symm
      have hlt := (Nat.pow_lt_pow_iff_right (by norm_num)).1 hbound
      omega
    have hquotient : (Cell.ofBinary m e).Covers
        ((value digits : ℕ) * 2 ^ (0 : ℤ) / ((10 ^ count : ℕ) * 2 ^ (0 : ℤ))) := by
      simpa using hcovers
    have hdiv := div_eq_of_covers h.normal hpos (Nat.pow_pos (by norm_num)) hquotient
    have hexponent : Int.negOfNat count = -count := Int.negOfNat_eq
    rw [h.eq_pack, ← hdiv, ← ofScientific_neg hpos hcount hle, ← hexponent]
    rfl

end Reckon.Decimal
