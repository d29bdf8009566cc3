import Mathlib.Algebra.Order.Field.Power
import Mathlib.Data.Rat.Cast.Order
import Mathlib.Tactic.FieldSimp
import Mathlib.Tactic.NormNum
import Reckon.Decimal.Shortest

/-!
The shortest decimal is a decimal of the double.

The search for the shortest decimal compares natural numbers. Here its cells
and grids are intervals and multiples of powers of ten, and the search is
shown to end in the cell: one of its grids is so fine that a cell contains a
point of it.

* `Normal`: the significands and exponents of the normal doubles that are
  not next to a subnormal one;
* `Cell.Covers`: the numbers of a cell, and `Cell.contains_iff`, which of
  them lie on a grid;
* `Cell.exists_onGrid?`: a fine grid has a point in the cell;
* `covers_shortest`: the main statement.
-/

namespace Reckon.Decimal

/-- The double `m · 2 ^ e` is normal and not the least of the normal ones. -/
structure Normal (m : ℕ) (e : ℤ) : Prop where
  le : 2 ^ 52 ≤ m
  lt : m < 2 ^ 53
  least : -1074 < e
  greatest : e ≤ 971

/-- The number that a decimal stands for. -/
def Scientific.toRat (d : Scientific) : ℚ := d.digits * 10 ^ d.exponent

/-- A power with a natural exponent is split off a power. -/
lemma zpow_eq_pow_mul {a : ℚ} (ha : a ≠ 0) {j t : ℤ} {p : ℕ} (h : j = p + t) :
    a ^ j = a ^ p * a ^ t := by
  rw [h, zpow_add₀ ha, zpow_natCast]

/-- The part of a power with a positive exponent is the power times the part with a negative
exponent. -/
lemma zpow_mul_pow_toNat_neg {a : ℚ} (ha : a ≠ 0) (k : ℤ) :
    a ^ k * a ^ (-k).toNat = a ^ k.toNat := by
  have hparts : (k.toNat : ℤ) = (-k).toNat + k := by omega
  rw [← zpow_natCast a k.toNat, zpow_eq_pow_mul ha hparts, mul_comm]

namespace Cell

variable {c : Cell} {k : ℤ} {d n : ℕ} {v : ℚ}

/-- The number lies in the cell. -/
def Covers (c : Cell) (v : ℚ) : Prop :=
  if c.closed then c.low * 2 ^ c.exponent ≤ v ∧ v ≤ c.high * 2 ^ c.exponent
  else c.low * 2 ^ c.exponent < v ∧ v < c.high * 2 ^ c.exponent

lemma Covers.low_le (h : c.Covers v) : c.low * 2 ^ c.exponent ≤ v := by
  rw [Covers] at h
  split at h
  · exact h.1
  · exact h.1.le

lemma Covers.le_high (h : c.Covers v) : v ≤ c.high * 2 ^ c.exponent := by
  rw [Covers] at h
  split at h
  · exact h.2
  · exact h.2.le

/-- The double of a cell lies in it. -/
lemma covers_middle (hlow : c.low < c.middle) (hhigh : c.middle < c.high) :
    c.Covers (c.middle * 2 ^ c.exponent) := by
  have hbelow : (c.low * 2 ^ c.exponent : ℚ) < c.middle * 2 ^ c.exponent := by gcongr
  have habove : (c.middle * 2 ^ c.exponent : ℚ) < c.high * 2 ^ c.exponent := by gcongr
  rw [Covers]
  split
  · exact ⟨hbelow.le, habove.le⟩
  · exact ⟨hbelow, habove⟩

/-- If a number is a multiple of the quarter by a quotient, the cell can be told from the quotient
without its division. -/
lemma covers_iff {num den : ℕ} (hden : 0 < den) (hv : v = num / den * 2 ^ c.exponent) :
    c.Covers v ↔ if c.closed then c.low * den ≤ num ∧ num ≤ c.high * den
      else c.low * den < num ∧ num < c.high * den := by
  have hpow : (0 : ℚ) < 2 ^ c.exponent := by positivity
  have hden' : (0 : ℚ) < den := Nat.cast_pos.2 hden
  have hle : ∀ a : ℕ, a * 2 ^ c.exponent ≤ v ↔ a * den ≤ num := fun a => by
    rw [hv, mul_le_mul_iff_left₀ hpow, le_div_iff₀ hden']
    norm_cast
  have hge : ∀ a : ℕ, v ≤ a * 2 ^ c.exponent ↔ num ≤ a * den := fun a => by
    rw [hv, mul_le_mul_iff_left₀ hpow, div_le_iff₀ hden']
    norm_cast
  simp only [Covers, hle, hge, ← not_le]

/-! ### Grids -/

/-- What the grid unit and the quarter are multiplied by to make them natural numbers. -/
def scale (c : Cell) (k : ℤ) : ℚ := 10 ^ (-k).toNat * 2 ^ (-c.exponent).toNat

lemma scale_pos (c : Cell) (k : ℤ) : 0 < c.scale k := by
  unfold scale
  positivity

lemma cast_gridUnit (c : Cell) (k : ℤ) : (c.gridUnit k : ℚ) = 10 ^ k * c.scale k := by
  rw [gridUnit, scale, Nat.pow_eq, Nat.pow_eq, ← mul_assoc,
    zpow_mul_pow_toNat_neg (by norm_num) k]
  norm_cast

lemma cast_quarter (c : Cell) (k : ℤ) : (c.quarter k : ℚ) = 2 ^ c.exponent * c.scale k := by
  rw [quarter, scale, Nat.pow_eq, Nat.pow_eq, mul_left_comm,
    zpow_mul_pow_toNat_neg (by norm_num) c.exponent, mul_comm]
  norm_cast

lemma quarter_pos (c : Cell) (k : ℤ) : 0 < c.quarter k := by
  rw [← Nat.cast_pos (α := ℚ), cast_quarter]
  exact mul_pos (by positivity) (c.scale_pos k)

lemma gridUnit_pos (c : Cell) (k : ℤ) : 0 < c.gridUnit k := by
  rw [← Nat.cast_pos (α := ℚ), cast_gridUnit]
  exact mul_pos (by positivity) (c.scale_pos k)

/-- The comparisons on the scale of the grid are comparisons of the numbers. -/
lemma contains_iff : c.contains k d = true ↔ c.Covers (d * 10 ^ k) := by
  have hv : (d * 10 ^ k : ℚ) = (d * c.gridUnit k : ℕ) / c.quarter k * 2 ^ c.exponent := by
    have hscale := (c.scale_pos k).ne'
    rw [Nat.cast_mul, cast_gridUnit, cast_quarter]
    field_simp
  rw [covers_iff (c.quarter_pos k) hv, contains]
  cases c.closed <;> simp

/-- What is found on a grid lies in the cell. -/
lemma contains_of_onGrid? (h : c.onGrid? k = some d) : c.contains k d = true := by
  rw [onGrid?] at h
  split at h
  case h_1 hbelow habove =>
    split at h
    case isTrue => exact Option.some.inj h ▸ hbelow
    case isFalse => exact Option.some.inj h ▸ habove
  case h_2 hbelow _ => exact Option.some.inj h ▸ hbelow
  case h_3 _ habove => exact Option.some.inj h ▸ habove
  case h_4 => cases h

/-- **A fine grid has a point in the cell**: if its unit is less than two quarters, the first
point above the middle is no more than that above it. -/
lemma exists_onGrid? (hlow : c.low < c.middle) (hhigh : c.middle + 2 ≤ c.high)
    (hfine : (10 : ℚ) ^ k < 2 * 2 ^ c.exponent) : ∃ d, c.onGrid? k = some d := by
  have hunit : c.gridUnit k < 2 * c.quarter k := by
    rw [← Nat.cast_lt (α := ℚ), Nat.cast_mul, cast_gridUnit, cast_quarter, ← mul_assoc]
    exact mul_lt_mul_of_pos_right hfine (c.scale_pos k)
  have hpos := c.gridUnit_pos k
  have habove : c.contains k (c.middle * c.quarter k / c.gridUnit k + 1) = true := by
    have hover : c.middle * c.quarter k <
        (c.middle * c.quarter k / c.gridUnit k + 1) * c.gridUnit k :=
      (Nat.div_lt_iff_lt_mul hpos).1 (Nat.lt_succ_self _)
    have hnear : c.middle * c.quarter k / c.gridUnit k * c.gridUnit k ≤ c.middle * c.quarter k :=
      Nat.div_mul_le_self _ _
    have hlow' : c.low * c.quarter k < c.middle * c.quarter k :=
      (Nat.mul_lt_mul_right (c.quarter_pos k)).2 hlow
    have hhigh' : (c.middle + 2) * c.quarter k ≤ c.high * c.quarter k :=
      Nat.mul_le_mul_right _ hhigh
    rw [Nat.add_mul] at hhigh'
    rw [Nat.add_mul, Nat.one_mul] at hover
    rw [contains, Nat.add_mul, Nat.one_mul]
    split
    · simp only [Bool.and_eq_true, decide_eq_true_eq]
      omega
    · simp only [Bool.and_eq_true, decide_eq_true_eq]
      omega
  rw [onGrid?]
  split
  case h_1 =>
    split
    all_goals exact ⟨_, rfl⟩
  case h_2 | h_3 => exact ⟨_, rfl⟩
  case h_4 h => cases habove.symm.trans h

/-! ### The search -/

/-- If the last grid of a search has a point in the cell, the search ends with a number of the
cell. The induction is on the grids that are left. -/
lemma covers_search (h : ∃ d, c.onGrid? (k - n) = some d) :
    c.Covers (c.search (n + 1) k).toRat := by
  induction n generalizing k with
  | zero =>
      obtain ⟨d, hd⟩ := h
      rw [Nat.cast_zero, sub_zero] at hd
      rw [search, hd]
      exact contains_iff.1 (contains_of_onGrid? hd)
  | succ n ih =>
      rw [search]
      split
      case h_1 d hd => exact contains_iff.1 (contains_of_onGrid? hd)
      case h_2 =>
        refine ih ?_
        rwa [Nat.cast_succ, add_comm, ← sub_sub] at h

end Cell

/-! ### Normal doubles -/

variable {m : ℕ} {e : ℤ}

lemma Normal.pos (h : Normal m e) : 0 < m := Nat.lt_of_lt_of_le (by norm_num) h.le

/-- Powers of ten and of two are compared through their twenty-eighth powers, since `10 ^ 28` lies
between `2 ^ 93` and `2 ^ 94`. -/
lemma ten_zpow_lt_two_zpow {k j : ℤ} (habove : 94 * k < 28 * j) (hbelow : 93 * k < 28 * j) :
    (10 : ℚ) ^ k < 2 ^ j := by
  have hmul : ∀ a : ℚ, ∀ i : ℤ, (a ^ i) ^ 28 = (a ^ 28) ^ i := fun a i => by
    rw [← zpow_natCast, ← zpow_natCast, ← zpow_mul, ← zpow_mul, mul_comm]
  have htwo : ∀ p : ℕ, ∀ i : ℤ, ((2 : ℚ) ^ p) ^ i = 2 ^ (p * i) := fun p i => by
    rw [← zpow_natCast, ← zpow_mul]
  refine lt_of_pow_lt_pow_left₀ 28 (by positivity) ?_
  rw [hmul, hmul, htwo]
  rcases le_total 0 k with hk | hk
  · calc ((10 : ℚ) ^ 28) ^ k ≤ (2 ^ 94) ^ k := zpow_le_zpow_left₀ hk (by norm_num) (by norm_num)
      _ < 2 ^ (((28 : ℕ) : ℤ) * j) := by
        rw [htwo]
        exact zpow_lt_zpow_right₀ (by norm_num) habove
  · -- Powers with a negative exponent decrease with the base.
    have hneg : ((2 : ℚ) ^ 93) ^ (-k) ≤ (10 ^ 28) ^ (-k) :=
      zpow_le_zpow_left₀ (by omega) (by norm_num) (by norm_num)
    rw [zpow_neg, zpow_neg, inv_le_inv₀ (by positivity) (by positivity)] at hneg
    calc ((10 : ℚ) ^ 28) ^ k ≤ (2 ^ 93) ^ k := hneg
      _ < 2 ^ (((28 : ℕ) : ℤ) * j) := by
        rw [htwo]
        exact zpow_lt_zpow_right₀ (by norm_num) hbelow

/-- The last grid of the search is fine. -/
lemma Normal.fine (h : Normal m e) :
    (10 : ℚ) ^ ((Cell.ofBinary m e).topExponent - 23) < 2 * 2 ^ (e - 2) := by
  have hle := h.le
  have hlt := h.lt
  have hlog : (Cell.ofBinary m e).high.log2 = 54 := by
    rw [Nat.log2_eq_iff]
    all_goals simp only [Cell.ofBinary]
    all_goals omega
  have htop : (Cell.ofBinary m e).topExponent = (e + 53) * 30103 / 100000 + 1 := by
    rw [Cell.topExponent, hlog]
    simp only [Cell.ofBinary]
    congr 3
    norm_num
    omega
  have hleast := h.least
  have hgreatest := h.greatest
  rw [← zpow_one_add₀ (by norm_num), htop]
  exact ten_zpow_lt_two_zpow (by omega) (by omega)

/-- **The shortest decimal of a normal double** lies in the cell of the double. -/
lemma covers_shortest (h : Normal m e) : (Cell.ofBinary m e).Covers (shortest m e).toRat := by
  have hpos := h.pos
  refine Cell.covers_search (Cell.exists_onGrid? ?_ (le_refl _) h.fine)
  simp only [Cell.ofBinary]
  split
  all_goals omega

end Reckon.Decimal
