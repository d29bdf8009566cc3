import Reckon.Proofs.Decimal.Nearest

/-!
Integers as doubles.

An integer of 64 bits is promoted like a decimal without a fraction: a small
one is a double and is multiplied by one, a large one is rounded to
fifty-three places. Either way a normal double comes out, with the sign of
the integer.

* `exists_roundWithAccuracy`: rounding a number of at least fifty-three
  places;
* `Represents.mul_one` and `Represents.div_one`: multiplying by one, and dividing by it;
* `exists_represents_ofNat`: the natural numbers of 64 bits;
* `nearest_neg`: decimals, in which the sign of an exponent of zero does not matter;
* `exists_unpack_ofInt`: the main statement.
-/

namespace Reckon.Decimal

open Float.Model Float.Model.UnpackedFloat

variable {x : Float} {m n p s : ℕ} {e t : ℤ}

/-! ### Rounding without a rest -/

/-- The number that the two bits tell is the whole part or the number above it. -/
lemma roundedMantissa_quotient_bounds (num den : ℕ) :
    num / den ≤ (quotient num den).roundedMantissa ∧
      (quotient num den).roundedMantissa ≤ num / den + 1 := by
  rw [quotient, roundedMantissa_mk]
  split_ifs <;> omega

/-- A number of at least fifty-three places is rounded to a normal double. -/
lemma exists_roundWithAccuracy (hlog : p.log2 = 52 + s) (hleast : -1074 < t + s)
    (hgreatest : t + s ≤ 970) (sign : Sign) :
    ∃ m e, ∃ h : Normal m e,
      roundWithAccuracy Format.binary64 sign p t .exact = .finite sign m e h.pos := by
  have hpos : p ≠ 0 := by
    rintro rfl
    rw [Nat.log2_zero] at hlog
    omega
  obtain ⟨hlow, hhigh⟩ := (Nat.log2_eq_iff hpos).1 hlog
  rw [pow_add] at hlow
  rw [Nat.add_right_comm, pow_add] at hhigh
  have hle : 2 ^ 52 ≤ p / 2 ^ s := (Nat.le_div_iff_mul_le (Nat.two_pow_pos s)).2 hlow
  have hlt : p / 2 ^ s < 2 ^ 53 := (Nat.div_lt_iff_lt_mul (Nat.two_pow_pos s)).2 hhigh
  obtain ⟨hdown, hup⟩ := roundedMantissa_quotient_bounds p (2 ^ s)
  have hfirst := shiftToTargetExponent_exact hlog hleast.le
  -- Rounding up may carry into one place more, and then the number is a power of two.
  by_cases hcarry : (quotient p (2 ^ s)).roundedMantissa < 2 ^ 53
  · have hnormal : Normal (quotient p (2 ^ s)).roundedMantissa (t + s) :=
      ⟨by omega, hcarry, hleast, by omega⟩
    exact ⟨_, _, hnormal, roundWithAccuracy_of_shift hfirst rfl (hle.trans hdown) hleast.le
      hnormal.pos (.inl ⟨hcarry, rfl, rfl⟩) sign⟩
  · have hnormal : Normal (2 ^ 52) (t + s + 1) := ⟨le_rfl, by decide, by omega, by omega⟩
    exact ⟨_, _, hnormal, roundWithAccuracy_of_shift hfirst rfl (hle.trans hdown) hleast.le
      hnormal.pos (.inr ⟨by omega, rfl, rfl⟩) sign⟩

/-! ### Natural numbers -/

/-- The first power of ten, by which a decimal without a fraction is multiplied. -/
lemma unpack_one : Float.exactlyRepresentablePowersOfTen[0].toModel.unpack =
    .finite .positive (2 ^ 52) (-52) (Nat.two_pow_pos 52) := by rfl

lemma Normal.mul_one (h : Normal m e) :
    UnpackedFloat.mul Format.binary64 (.finite .positive m e h.pos)
        (.finite .positive (2 ^ 52) (-52) (Nat.two_pow_pos 52)) =
      .finite .positive m e h.pos := by
  have hleast := h.least
  have hlog : (m * 2 ^ 52).log2 = 52 + 52 := by
    rw [log2_mul_two_pow h.pos.ne', (Nat.log2_eq_iff h.pos.ne').2 ⟨h.le, h.lt⟩]
  have hround : (quotient (m * 2 ^ 52) (2 ^ 52)).roundedMantissa = m :=
    roundedMantissa_quotient (Nat.two_pow_pos 52) ⟨by omega, by omega, fun _ => by omega⟩
  have hfirst := shiftToTargetExponent_exact (t := e + -52) hlog (by omega)
  exact roundWithAccuracy_of_shift hfirst hround h.le (by omega) h.pos
    (.inl ⟨h.lt, rfl, by omega⟩) .positive

/-- A double is multiplied by one. -/
lemma Represents.mul_one (h : Represents x m e) :
    Represents (x * Float.exactlyRepresentablePowersOfTen[0]) m e := by
  have hmul : x * Float.exactlyRepresentablePowersOfTen[0] =
      .ofModel (.pack (.finite .positive m e h.normal.pos)) := by
    show Float.ofModel (.pack (UnpackedFloat.mul Format.binary64 _ _)) = _
    rw [h.unpack, unpack_one, h.normal.mul_one]
  exact hmul ▸ h.normal.represents

/-- The model of reading rounds a natural number with zeros behind it. -/
lemma ofScientific_zero (hn : 0 < n) : UnpackedFloat.ofScientific Format.binary64 n 0 =
    roundWithAccuracy Format.binary64 .positive (n * 2 ^ 53) (-53) .exact := by
  have hsmall : ¬ (0 : ℤ) < -((2 ^ Format.binary64.exponentBits : ℤ) + n.log2) := by
    show ¬ (0 : ℤ) < -(2048 + n.log2)
    omega
  have hlarge : ¬ (0 : ℤ) > 2 ^ Format.binary64.exponentBits := by
    show ¬ (0 : ℤ) > 2048
    omega
  rw [UnpackedFloat.ofScientific, dif_neg hn.ne', if_neg hlarge, if_neg hsmall, if_pos le_rfl]
  simp only [UnpackedFloat.mul, Int.toNat_zero, pow_zero, Nat.mul_one, add_zero, Nat.shiftLeft_eq]
  rfl

/-- A positive number of 64 bits is promoted to a normal double. -/
lemma exists_represents_ofNat (hn : 0 < n) (hlt : n < 2 ^ 64) :
    ∃ m e, Represents (Float.ofNat n) m e := by
  show ∃ m e, Represents (Float.ofScientific n false 0) m e
  rw [Float.ofScientific]
  split
  case isTrue hfast =>
    -- The number is a double itself.
    obtain ⟨m, e, h, -⟩ := represents_toFloat hn hfast.1
    exact ⟨m, e, h.mul_one⟩
  case isFalse hslow =>
    -- The number is rounded, after as many zeros were put behind it as the mantissa has places.
    have hlog : n.log2 < 64 := (Nat.log2_lt hn.ne').2 hlt
    have hplaces : (n * 2 ^ 53).log2 = 52 + (n.log2 + 1) := by
      rw [log2_mul_two_pow hn.ne']
      omega
    obtain ⟨m, e, h, hround⟩ := exists_roundWithAccuracy (t := -53) hplaces (by omega) (by omega)
      .positive
    have hrepresents := h.represents
    rw [← hround, ← ofScientific_zero hn] at hrepresents
    exact ⟨m, e, hrepresents⟩

/-! ### Decimals -/

/-- A normal double lies in its own cell. -/
lemma Normal.covers_self (h : Normal m e) : (Cell.ofBinary m e).Covers (m * 2 ^ e) := by
  have hpos := h.pos
  have hmiddle : ((Cell.ofBinary m e).middle * 2 ^ (Cell.ofBinary m e).exponent : ℚ) =
      m * 2 ^ e := by
    have hfour : (2 : ℚ) ^ e = 2 ^ 2 * 2 ^ (e - 2) := zpow_eq_pow_mul two_ne_zero (by norm_num)
    rw [hfour, Cell.ofBinary]
    push_cast
    ring
  rw [← hmiddle]
  refine Cell.covers_middle ?_ (Nat.lt_add_of_pos_right Nat.two_pos)
  simp only [Cell.ofBinary]
  split <;> omega

/-- A double is divided by one. -/
lemma Represents.div_one (h : Represents x m e) :
    x / Float.exactlyRepresentablePowersOfTen[0] = x := by
  have hone : Represents Float.exactlyRepresentablePowersOfTen[0] (2 ^ 52) (-52) :=
    ⟨⟨le_rfl, by decide, by decide, by decide⟩, unpack_one⟩
  have hvalue : (m * 2 ^ e / ((2 ^ 52 : ℕ) * 2 ^ (-52 : ℤ)) : ℚ) = m * 2 ^ e := by norm_num
  refine h.div_eq h hone ?_
  rw [hvalue]
  exact h.normal.covers_self

/-- An exponent of zero has no sign. -/
lemma ofScientific_true_zero (n : ℕ) :
    Float.ofScientific n true 0 = Float.ofScientific n false 0 := by
  rcases Nat.eq_zero_or_pos n with rfl | hn
  · rfl
  rw [Float.ofScientific, Float.ofScientific]
  split
  case isTrue hfast =>
    obtain ⟨m, e, h, -⟩ := represents_toFloat hn hfast.1
    exact h.div_one.trans (h.eq_pack.trans h.mul_one.eq_pack.symm)
  case isFalse => rfl

/-- **A decimal is read as a literal is**, also one without digits behind its point. -/
lemma nearest_neg (digits : List Char) (count : ℕ) :
    nearest digits (-count) = Float.ofScientific (Nat.ofDigitChars 10 digits 0) true count := by
  cases count with
  | zero => exact (ofScientific_true_zero _).symm
  | succ k =>
      have hneg : (-(k + 1 : ℕ) : ℤ) < 0 := by omega
      rw [nearest, decide_eq_true hneg, Int.natAbs_neg, Int.natAbs_natCast, value]

/-! ### Integers -/

/-- **Integers are promoted to normal doubles**, unless they are zero. -/
lemma exists_unpack_ofInt {n : ℤ} (hn : n ≠ 0) (hlt : n.natAbs < 2 ^ 64) :
    ∃ sign m e, ∃ h : Normal m e, (Float.ofInt n).toModel.unpack = .finite sign m e h.pos := by
  cases n with
  | ofNat k =>
      obtain ⟨m, e, h⟩ := exists_represents_ofNat (Int.natAbs_pos.2 hn) hlt
      exact ⟨.positive, m, e, h.normal, h.unpack⟩
  | negSucc k =>
      obtain ⟨m, e, h⟩ := exists_represents_ofNat k.succ_pos hlt
      refine ⟨.negative, m, e, h.normal, ?_⟩
      have hneg : Float.ofInt (.negSucc k) =
          .ofModel (.pack (.finite .negative m e h.normal.pos)) := by
        show Float.ofModel (.pack (UnpackedFloat.neg (Float.ofNat (k + 1)).toModel.unpack)) = _
        rw [h.unpack]
        rfl
      rw [hneg]
      exact h.normal.unpack_pack

end Reckon.Decimal
