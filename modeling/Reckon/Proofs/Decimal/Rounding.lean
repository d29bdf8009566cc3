import Mathlib
import Reckon.Proofs.Decimal.Cell

/-!
Quotients rounded to doubles.

The quotient of two doubles is computed with more places than it needs, the
places that are too many are shifted out into a round bit and a sticky bit,
and these decide how it is rounded. So the result is the double in whose
cell the exact quotient lies.

* `quotient`: the whole part of a quotient and the two bits for the rest.
  `shiftRight_quotient`: places that are shifted out go into the divisor;
* `Nearest` and `roundedMantissa_quotient`: the bits tell the nearest number;
* `roundWithAccuracy_quotient`: rounding to the places of a double;
* `div_eq_of_covers`: the main statement.
-/

namespace Reckon.Decimal

open Float.Model Float.Model.UnpackedFloat

variable {num den r s : ℕ}

/-! ### Quotients with two more bits -/

/-- The whole part of a quotient, whether the rest is at least a half, and whether it is neither
nothing nor a half. -/
def quotient (num den : ℕ) : ExtendedMantissa where
  mantissa := num / den
  roundBit := den ≤ 2 * (num % den)
  stickyBit := num % den ≠ 0 ∧ 2 * (num % den) ≠ den

/-- The bits are those that division keeps of the rest. -/
lemma ofMantissaAndAccuracy_quotient (hden : 0 < den) :
    ExtendedMantissa.ofMantissaAndAccuracy (num / den) (accuracyOfFraction (num % den) den) =
      quotient num den := by
  rw [accuracyOfFraction, quotient]
  split
  case isTrue hzero =>
    have hhalf : ¬ den ≤ 2 * (num % den) := by omega
    have hrest : ¬ (num % den ≠ 0 ∧ 2 * (num % den) ≠ den) := fun h => h.1 hzero
    rw [decide_eq_false hhalf, decide_eq_false hrest]
    rfl
  case isFalse hne =>
    rcases Nat.lt_trichotomy (2 * (num % den)) den with h | h | h
    · rw [Nat.compare_eq_lt.2 h, decide_eq_false h.not_ge, decide_eq_true ⟨hne, h.ne⟩]
      rfl
    · have hrest : ¬ (num % den ≠ 0 ∧ 2 * (num % den) ≠ den) := fun hboth => hboth.2 h
      rw [Nat.compare_eq_eq.2 h, decide_eq_true h.ge, decide_eq_false hrest]
      rfl
    · rw [Nat.compare_eq_gt.2 h, decide_eq_true h.le, decide_eq_true ⟨hne, h.ne'⟩]
      rfl

/-- A place that is shifted out becomes the first bit, and the two bits become the second. -/
lemma shiftRightOne_quotient (hden : 0 < den) :
    (quotient num den).shiftRightOne = quotient num (den * 2) := by
  have hrem : num % (den * 2) = num % den + den * (num / den % 2) := Nat.mod_mul
  have hlt : num % den < den := Nat.mod_lt num hden
  have hhalf : num / den / 2 = num / (den * 2) := Nat.div_div_eq_div_mul num den 2
  have hparity := Nat.mod_two_eq_zero_or_one (num / den)
  simp only [ExtendedMantissa.shiftRightOne, quotient, ExtendedMantissa.mk.injEq, hhalf, hrem,
    true_and]
  constructor
  · rw [Bool.eq_iff_iff, bne_iff_ne, decide_eq_true_iff]
    rcases hparity with h | h
    all_goals
      rw [h]
      omega
  · rw [Bool.eq_iff_iff, Bool.or_eq_true, decide_eq_true_iff, decide_eq_true_iff,
      decide_eq_true_iff]
    rcases hparity with h | h
    all_goals
      rw [h]
      omega

/-- Places that are shifted out go into the divisor. -/
lemma shiftRight_quotient (hden : 0 < den) (s : ℕ) :
    quotient num den >>> s = quotient num (den * 2 ^ s) := by
  induction s with
  | zero => rw [pow_zero, Nat.mul_one]; rfl
  | succ s ih =>
      show (quotient num den >>> s).shiftRightOne = _
      rw [ih, shiftRightOne_quotient (Nat.mul_pos hden (Nat.two_pow_pos s)), Nat.mul_assoc,
        pow_succ]

/-- Of the natural numbers, `r` is the nearest one to the quotient, and the even one of two that
are equally near. -/
structure Nearest (r num den : ℕ) : Prop where
  low : 2 * (r * den) ≤ 2 * num + den
  high : 2 * num ≤ 2 * (r * den) + den
  strict : r % 2 = 1 → 2 * (r * den) < 2 * num + den ∧ 2 * num < 2 * (r * den) + den

lemma roundedMantissa_mk (q : ℕ) (half rest : Bool) :
    (ExtendedMantissa.mk q half rest).roundedMantissa =
      if half then if rest then q + 1 else q + q % 2 else q := by
  cases half <;> cases rest <;> rfl

/-- **The two bits tell the nearest number.** It is the whole part or the number above it. -/
lemma roundedMantissa_quotient (hden : 0 < den) (h : Nearest r num den) :
    (quotient num den).roundedMantissa = r := by
  have hlow := h.low
  have hhigh := h.high
  have hstrict := h.strict
  have hlt : num % den < den := Nat.mod_lt num hden
  have hnum : num / den * den + num % den = num := Nat.div_add_mod' num den
  have hle : num / den ≤ r := by
    by_contra hgt
    have hmul : (r + 1) * den ≤ num / den * den := Nat.mul_le_mul_right den (by omega)
    rw [Nat.add_mul] at hmul
    omega
  have hge : r ≤ num / den + 1 := by
    by_contra hgt
    have hmul : (num / den + 2) * den ≤ r * den := Nat.mul_le_mul_right den (by omega)
    rw [Nat.add_mul] at hmul
    omega
  rw [quotient, roundedMantissa_mk]
  simp only [decide_eq_true_eq]
  obtain rfl | rfl : r = num / den ∨ r = num / den + 1 := by omega
  · split_ifs <;> omega
  · rw [Nat.add_mul] at hlow hhigh hstrict
    split_ifs <;> omega

/-! ### Rounding to the places of a double -/

variable {t e : ℤ} {m : ℕ}

/-- The last place of a double right below `2 ^ j` is the fifty-third one, but no further down than
the last place of the least doubles. -/
lemma targetExponent_binary64 (j : ℤ) :
    Format.binary64.targetExponent j = max (j - 53) (-1074) := rfl

/-- The exponent with which a number of at least fifty-three places is written as a double. -/
lemma targetExponent_eq {n : ℕ} (hlog : n.log2 = 52 + s) (hleast : -1074 ≤ t + s) :
    Format.binary64.targetExponent (totalExponent n t) = t + s := by
  rw [targetExponent_binary64, totalExponent, hlog]
  omega

/-- A quotient of at least fifty-three places is shifted to fifty-three places. -/
lemma shiftToTargetExponent_quotient (hden : 0 < den) (hlog : (num / den).log2 = 52 + s)
    (hleast : -1074 ≤ t + s) :
    shiftToTargetExponent Format.binary64 (num / den) t (accuracyOfFraction (num % den) den) =
      (quotient num (den * 2 ^ s), t + s) := by
  have hshift : (t + s - t).toNat = s := by omega
  rw [shiftToTargetExponent, targetExponent_eq hlog hleast]
  simp only [shiftToExponent, hshift, ofMantissaAndAccuracy_quotient hden,
    shiftRight_quotient hden]

/-- A number without rest is shifted to fifty-three places. -/
lemma shiftToTargetExponent_exact {n : ℕ} (hlog : n.log2 = 52 + s) (hleast : -1074 ≤ t + s) :
    shiftToTargetExponent Format.binary64 n t .exact = (quotient n (2 ^ s), t + s) := by
  have hlog' : (n / 1).log2 = 52 + s := by rwa [Nat.div_one]
  have hexact := shiftToTargetExponent_quotient Nat.one_pos hlog' hleast
  rwa [Nat.div_one, Nat.mod_one, Nat.one_mul] at hexact

/-- What is rounded is shifted, rounded and shifted again. -/
lemma roundWithAccuracy_eq {spec : Format} {p : ℕ} {e₀ e₁ : ℤ} {accuracy : Accuracy}
    {first second : ExtendedMantissa}
    (hfirst : shiftToTargetExponent spec p e₀ accuracy = (first, e₁))
    (hround : first.roundedMantissa = r)
    (hsecond : shiftToTargetExponent spec r e₁ .exact = (second, e))
    (hmantissa : second.mantissa = m) (hm : 0 < m) (sign : Sign) :
    roundWithAccuracy spec sign p e₀ accuracy = .finite sign m e hm := by
  subst hmantissa hround
  simp only [roundWithAccuracy, hfirst, hsecond]
  exact dif_neg hm.ne'

/-- What is rounded to fifty-three places is a double. Rounding up to a power of two makes one place
too many, which is shifted out again. -/
lemma roundWithAccuracy_of_shift {p : ℕ} {e₀ : ℤ} {accuracy : Accuracy} {first : ExtendedMantissa}
    (hfirst : shiftToTargetExponent Format.binary64 p e₀ accuracy = (first, t))
    (hround : first.roundedMantissa = r) (hle : 2 ^ 52 ≤ r) (hleast : -1074 ≤ t) (hm : 0 < m)
    (hdouble : r < 2 ^ 53 ∧ m = r ∧ e = t ∨ r = 2 ^ 53 ∧ m = 2 ^ 52 ∧ e = t + 1) (sign : Sign) :
    roundWithAccuracy Format.binary64 sign p e₀ accuracy = .finite sign m e hm := by
  rcases hdouble with ⟨hlt, rfl, rfl⟩ | ⟨rfl, rfl, rfl⟩
  · have hlog : m.log2 = 52 + 0 := (Nat.log2_eq_iff hm.ne').2 ⟨hle, hlt⟩
    have hsecond : shiftToTargetExponent Format.binary64 m e .exact =
        (quotient m (2 ^ 0), e + (0 : ℕ)) := shiftToTargetExponent_exact hlog (by omega)
    rw [Nat.cast_zero, add_zero] at hsecond
    exact roundWithAccuracy_eq hfirst hround hsecond (Nat.div_one m) hm sign
  · -- The one place too many is shifted out the second time.
    have hsecond : shiftToTargetExponent Format.binary64 (2 ^ 53) t .exact =
        (quotient (2 ^ 53) (2 ^ 1), t + (1 : ℕ)) :=
      shiftToTargetExponent_exact Nat.log2_two_pow (by omega)
    exact roundWithAccuracy_eq hfirst hround hsecond (by decide) hm sign

/-- **A quotient is rounded** to the nearest number of fifty-three places. -/
lemma roundWithAccuracy_quotient (hden : 0 < den) (hlow : 2 ^ 52 * (den * 2 ^ s) ≤ num)
    (hhigh : num < 2 ^ 53 * (den * 2 ^ s)) (hleast : -1074 ≤ t + s)
    (hr : Nearest r num (den * 2 ^ s)) (hm : 0 < m)
    (hdouble : r < 2 ^ 53 ∧ m = r ∧ e = t + s ∨ r = 2 ^ 53 ∧ m = 2 ^ 52 ∧ e = t + s + 1)
    (sign : Sign) :
    roundWithAccuracy Format.binary64 sign (num / den) t (accuracyOfFraction (num % den) den) =
      .finite sign m e hm := by
  have hden' : 0 < den * 2 ^ s := Nat.mul_pos hden (Nat.two_pow_pos s)
  have hlog : (num / den).log2 = 52 + s := by
    have hle : 2 ^ 52 * 2 ^ s ≤ num / den :=
      (Nat.le_div_iff_mul_le hden).2 (by rwa [Nat.mul_assoc, Nat.mul_comm (2 ^ s)])
    have hlt : num / den < 2 ^ 53 * 2 ^ s :=
      (Nat.div_lt_iff_lt_mul hden).2 (by rwa [Nat.mul_assoc, Nat.mul_comm (2 ^ s)])
    have hpos : 0 < num / den := Nat.lt_of_lt_of_le (by positivity) hle
    rw [Nat.log2_eq_iff hpos.ne', pow_add, Nat.add_right_comm, pow_add]
    exact ⟨hle, hlt⟩
  have hr' : 2 ^ 52 ≤ r := by
    by_contra hgt
    have hmul : (r + 1) * (den * 2 ^ s) ≤ 2 ^ 52 * (den * 2 ^ s) :=
      Nat.mul_le_mul_right _ (by omega)
    have hnear := hr.high
    rw [Nat.add_mul] at hmul
    omega
  have hfirst := shiftToTargetExponent_quotient hden hlog hleast
  have hround := roundedMantissa_quotient hden' hr
  exact roundWithAccuracy_of_shift hfirst hround hr' hleast hm hdouble sign

/-! ### Division -/

variable {v : ℚ} {m₁ m₂ : ℕ} {e₁ e₂ : ℤ}

/-- A quotient is above the power of two that its logarithms tell. -/
lemma two_zpow_lt_div (h₁ : 0 < m₁) (h₂ : 0 < m₂) :
    (2 : ℚ) ^ (m₁.log2 + e₁ - (m₂.log2 + 1 + e₂)) < m₁ * 2 ^ e₁ / (m₂ * 2 ^ e₂) := by
  have hlow : (2 : ℚ) ^ m₁.log2 ≤ m₁ := by exact_mod_cast Nat.log2_self_le h₁.ne'
  have hhigh : (m₂ : ℚ) < 2 ^ (m₂.log2 + 1) := by exact_mod_cast Nat.lt_log2_self
  have hpos : (0 : ℚ) < m₂ := Nat.cast_pos.2 h₂
  rw [lt_div_iff₀ (by positivity)]
  calc (2 : ℚ) ^ (m₁.log2 + e₁ - (m₂.log2 + 1 + e₂)) * (m₂ * 2 ^ e₂)
      < 2 ^ (m₁.log2 + e₁ - (m₂.log2 + 1 + e₂)) * (2 ^ (m₂.log2 + 1) * 2 ^ e₂) := by gcongr
    _ = 2 ^ m₁.log2 * 2 ^ e₁ := by
        rw [← zpow_eq_pow_mul two_ne_zero rfl, ← zpow_eq_pow_mul two_ne_zero rfl,
          ← zpow_add₀ two_ne_zero]
        congr 1
        push_cast
        ring
    _ ≤ m₁ * 2 ^ e₁ := by gcongr

/-- The quotient is computed exactly, with so many places that its exponent is at most that of
any double it can be rounded to. -/
lemma divCore_eq (h₁ : 0 < m₁) (h₂ : 0 < m₂) (hv : v = m₁ * 2 ^ e₁ / (m₂ * 2 ^ e₂)) :
    ∃ num t, divCore Format.binary64 m₁ e₁ m₂ e₂ =
        (num / m₂, t, accuracyOfFraction (num % m₂) m₂) ∧ v = num / m₂ * 2 ^ t ∧
      ∀ j : ℤ, -1074 ≤ j → v < 2 ^ (j + 53) → t ≤ j := by
  refine ⟨_, _, rfl, ?_, fun j hj hlt => ?_⟩
  · generalize ht : min (e₁ - e₂)
      (Format.binary64.targetExponent (totalExponent m₁ e₁ - totalExponent m₂ e₂)) = t
    have hle : t ≤ e₁ - e₂ := ht ▸ min_le_left _ _
    have hsplit : (2 : ℚ) ^ e₁ = 2 ^ (e₁ - e₂ - t).toNat * (2 ^ t * 2 ^ e₂) := by
      rw [zpow_eq_pow_mul two_ne_zero (show e₁ = (e₁ - e₂ - t).toNat + (t + e₂) by omega),
        zpow_add₀ two_ne_zero]
    rw [hv, hsplit, Nat.shiftLeft_eq, Nat.cast_mul, Nat.cast_pow]
    have hpos : (0 : ℚ) < m₂ := Nat.cast_pos.2 h₂
    field_simp
    norm_cast
  · have hbelow := (two_zpow_lt_div h₁ h₂).trans (hv ▸ hlt)
    rw [zpow_lt_zpow_iff_right₀ (by norm_num)] at hbelow
    refine (min_le_right _ _).trans ?_
    rw [targetExponent_binary64, totalExponent, totalExponent]
    omega

/-- The cell of a normal double ends half a place from it on both sides, and a quarter below it at
the start of a binade. -/
lemma Normal.bounds (h : Normal m e) (hden : 0 < den) (hv : v = num / den * 2 ^ (e - 2))
    (hcovers : (Cell.ofBinary m e).Covers v) :
    4 * (m * den) ≤ num + 2 * den ∧ num ≤ 4 * (m * den) + 2 * den ∧
      (m % 2 = 1 → 4 * (m * den) < num + 2 * den ∧ num < 4 * (m * den) + 2 * den) ∧
      (m = 2 ^ 52 → 4 * (m * den) ≤ num + den) := by
  have hmul : den ≤ m * den := Nat.le_mul_of_pos_left den h.pos
  have hleast : e ≠ Binary64.leastExponent := h.least.ne'
  have hlow : (Cell.ofBinary m e).low * den =
      if m = 2 ^ 52 then 4 * (m * den) - den else 4 * (m * den) - 2 * den := by
    simp only [Cell.ofBinary, Binary64.fractionCount, Nat.pow_eq, hleast, ne_eq,
      not_false_eq_true, and_true]
    split
    all_goals rw [Nat.sub_mul, Nat.mul_assoc]
    rw [Nat.one_mul]
  have hhigh : (Cell.ofBinary m e).high * den = 4 * (m * den) + 2 * den := by
    rw [Cell.ofBinary, Nat.add_mul, Nat.mul_assoc]
  have hclosed : (Cell.ofBinary m e).closed = true ↔ m % 2 = 0 := decide_eq_true_iff
  rw [Cell.covers_iff hden hv, hlow, hhigh] at hcovers
  simp only [hclosed] at hcovers
  split_ifs at hcovers
  all_goals omega

/-- A number of the cell that is not below the binade is nearest to the double. -/
lemma Normal.nearest (h : Normal m e) (hden : 0 < den)
    (hv : v = (4 * num : ℕ) / den * 2 ^ (e - 2)) (hcovers : (Cell.ofBinary m e).Covers v) :
    Nearest m num den ∧ num < 2 ^ 53 * den := by
  obtain ⟨hlow, hhigh, hstrict, -⟩ := h.bounds hden hv hcovers
  have hlast : (m + 1) * den ≤ 2 ^ 53 * den := Nat.mul_le_mul_right den h.lt
  rw [Nat.add_mul] at hlast
  exact ⟨⟨by omega, by omega, fun hodd => by have := hstrict hodd; omega⟩, by omega⟩

/-- A number of the cell that is below the binade is nearest to the end of the binade below, where
the places are half as large. -/
lemma Normal.nearest_below (h : Normal m e) (hden : 0 < den)
    (hv : v = (2 * num : ℕ) / den * 2 ^ (e - 2)) (hbelow : num < 2 ^ 53 * den)
    (hcovers : (Cell.ofBinary m e).Covers v) :
    m = 2 ^ 52 ∧ Nearest (2 ^ 53) num den ∧ 2 ^ 52 * den ≤ num := by
  obtain ⟨hlow, -, -, hstart⟩ := h.bounds hden hv hcovers
  have hm : m = 2 ^ 52 := by
    by_contra hne
    have hle := h.le
    have hnext : (2 ^ 52 + 1) * den ≤ m * den := Nat.mul_le_mul_right den (by omega)
    rw [Nat.add_mul] at hnext
    omega
  have hquarter := hstart hm
  rw [hm] at hquarter
  exact ⟨hm, ⟨by omega, by omega, fun hodd => by omega⟩, by omega⟩

/-- The cell of a double ends in its binade. -/
lemma Normal.lt_of_covers (h : Normal m e) (hcovers : (Cell.ofBinary m e).Covers v) :
    v < 2 ^ (e + 53) := by
  have hle : v ≤ ((4 * m + 2 : ℕ) : ℚ) * 2 ^ (e - 2) := hcovers.le_high
  have hlt : ((4 * m + 2 : ℕ) : ℚ) < 2 ^ 55 := by
    have hm := h.lt
    exact_mod_cast (by omega : 4 * m + 2 < 2 ^ 55)
  calc v ≤ ((4 * m + 2 : ℕ) : ℚ) * 2 ^ (e - 2) := hle
    _ < 2 ^ 55 * 2 ^ (e - 2) := by gcongr
    _ = 2 ^ (e + 53) := (zpow_eq_pow_mul two_ne_zero (by omega)).symm

/-- On the scale of an exponent above its own, a quotient has a greater divisor. -/
lemma div_mul_two_zpow_eq (num den : ℕ) {j : ℤ} (hle : t ≤ j) :
    (num / den * 2 ^ t : ℚ) = num / (den * 2 ^ (j - t).toNat : ℕ) * 2 ^ j := by
  have hsplit : (2 : ℚ) ^ j = 2 ^ (j - t).toNat * 2 ^ t := zpow_eq_pow_mul two_ne_zero (by omega)
  rw [hsplit, Nat.cast_mul, Nat.cast_pow, Nat.cast_ofNat]
  field_simp

/-- A quotient is compared with a power of two without its division. -/
lemma two_zpow_le_iff (hden : 0 < den) (p : ℕ) (j : ℤ) :
    (2 : ℚ) ^ (j + p) ≤ num / den * 2 ^ j ↔ 2 ^ p * den ≤ num := by
  have hden' : (0 : ℚ) < den := Nat.cast_pos.2 hden
  rw [zpow_eq_pow_mul two_ne_zero (add_comm j p), mul_le_mul_iff_left₀ (by positivity),
    le_div_iff₀ hden']
  norm_cast

/-- **Division rounds to the double in whose cell the quotient lies.** If the quotient is not
below the binade of the double, its first fifty-three places are rounded to those of the double;
otherwise they are rounded up to the start of the binade. -/
lemma div_eq_of_covers (h : Normal m e) (h₁ : 0 < m₁) (h₂ : 0 < m₂)
    (hcovers : (Cell.ofBinary m e).Covers (m₁ * 2 ^ e₁ / (m₂ * 2 ^ e₂))) :
    UnpackedFloat.div Format.binary64 (.finite .positive m₁ e₁ h₁) (.finite .positive m₂ e₂ h₂) =
      .finite .positive m e h.pos := by
  obtain ⟨num, t, hcore, hv, hplaces⟩ := divCore_eq h₁ h₂ rfl
  rw [hv] at hcovers hplaces
  have hleast := h.least
  have hfour : (2 : ℚ) ^ e = 2 ^ 2 * 2 ^ (e - 2) := zpow_eq_pow_mul two_ne_zero (by omega)
  have htwo : (2 : ℚ) ^ (e - 1) = 2 ^ 1 * 2 ^ (e - 2) := zpow_eq_pow_mul two_ne_zero (by omega)
  have hbinade : e - 1 + 53 = e + 52 := by ring
  simp only [UnpackedFloat.div, hcore]
  by_cases hbelow : (num / m₂ * 2 ^ t : ℚ) < 2 ^ (e + 52)
  · -- The quotient has its fifty-three places in the binade below.
    have hle : t ≤ e - 1 := hplaces (e - 1) (by omega) (by rwa [hbinade])
    have hden : 0 < m₂ * 2 ^ (e - 1 - t).toNat := Nat.mul_pos h₂ (Nat.two_pow_pos _)
    have hplace : t + (e - 1 - t).toNat = e - 1 := by omega
    rw [div_mul_two_zpow_eq num m₂ hle] at hcovers hbelow
    have hhigh : num < 2 ^ 53 * (m₂ * 2 ^ (e - 1 - t).toNat) := by
      rw [← not_le, ← two_zpow_le_iff hden 53 (e - 1), not_le, Nat.cast_ofNat, hbinade]
      exact hbelow
    obtain ⟨rfl, hnear, hlow⟩ :=
      h.nearest_below hden (by rw [htwo]; push_cast; ring) hhigh hcovers
    exact roundWithAccuracy_quotient h₂ hlow hhigh (by omega) hnear h.pos
      (.inr ⟨rfl, rfl, by omega⟩) _
  · have hle : t ≤ e := hplaces e (by omega) (h.lt_of_covers hcovers)
    have hden : 0 < m₂ * 2 ^ (e - t).toNat := Nat.mul_pos h₂ (Nat.two_pow_pos _)
    have hplace : t + (e - t).toNat = e := by omega
    rw [div_mul_two_zpow_eq num m₂ hle] at hcovers hbelow
    have hlow : 2 ^ 52 * (m₂ * 2 ^ (e - t).toNat) ≤ num :=
      (two_zpow_le_iff hden 52 e).1 (not_lt.1 hbelow)
    obtain ⟨hnear, hhigh⟩ := h.nearest hden (by rw [hfour]; push_cast; ring) hcovers
    exact roundWithAccuracy_quotient h₂ hlow hhigh (by omega) hnear h.pos
      (.inl ⟨h.lt, rfl, hplace.symm⟩) _

end Reckon.Decimal
