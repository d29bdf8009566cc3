import Reckon.Decimal.Layout
import Reckon.Proofs.Decimal.Nearest

/-!
Doubles in positional notation.

The doubles from `10 ^ -4` up to but without `10 ^ 16`, and zero, are written
with digits, a point and digits. Read as decimals, the digits on both sides
of the point give the double back.

* `Pointed`: a text with a point among digits, and the number it denotes;
* `pointed_before`, `pointed_behind` and `pointed_among`: the three places
  where the point can stand. `exists_pointed_positional`: one of them is
  chosen;
* `shortest_bounds` and `lead_bounds`: these doubles are written in
  positional notation;
* `exists_pointed_float`: the main statement.
-/

namespace Reckon.Decimal

variable {x : Float} {m d : ℕ} {e k : ℤ} {ds : List Char}

/-! ### Digits -/

/-- Zeros in front of a number do not matter. -/
lemma value_replicate_append (n : ℕ) (ds : List Char) :
    value (List.replicate n '0' ++ ds) = value ds := by
  rw [value, Nat.ofDigitChars_append, Nat.ofDigitChars_replicate_zero, Nat.mul_zero, value]

/-- Zeros behind a number multiply it. -/
lemma value_append_replicate (ds : List Char) (n : ℕ) :
    value (ds ++ List.replicate n '0') = 10 ^ n * value ds := by
  rw [value, Nat.ofDigitChars_append, Nat.ofDigitChars_replicate_zero, value]

/-- A number has as many digits as the power of ten above it tells. -/
lemma lt_ten_pow_length_natural (d : ℕ) : d < 10 ^ (natural d).length :=
  (Nat.length_toDigits_le_iff (by norm_num) Nat.length_toDigits_pos).1 (le_refl _)

lemma ten_pow_length_natural_le (hd : 0 < d) : 10 ^ ((natural d).length - 1) ≤ d := by
  by_contra hlt
  rcases Nat.eq_zero_or_pos ((natural d).length - 1) with hzero | hpos
  · rw [hzero] at hlt
    omega
  · have hle := (Nat.length_toDigits_le_iff (by norm_num) hpos).2 (Nat.lt_of_not_le hlt)
    rw [natural] at hpos hle
    omega

/-! ### Positional notation -/

/-- The text is digits, a point and digits, on both sides of the point at least one. The number
that it denotes is told by the digits and by how many of them come after the point. -/
structure Pointed (text whole fraction : List Char) (v : ℚ) : Prop where
  text_eq : text = whole ++ '.' :: fraction
  whole_ne : whole ≠ []
  fraction_ne : fraction ≠ []
  digits : ∀ c ∈ whole ++ fraction, c.isDigit = true
  value_eq : value (whole ++ fraction) / 10 ^ fraction.length = v

lemma isDigit_of_mem_replicate (n : ℕ) : ∀ c ∈ List.replicate n '0', c.isDigit = true := by
  intro c hc
  rw [List.eq_of_mem_replicate hc]
  rfl

/-- The point stands in front of the digits, with zeros around it. -/
lemma pointed_before (hne : ds ≠ []) (hdigits : ∀ c ∈ ds, c.isDigit = true) (n : ℕ) :
    Pointed ('0' :: '.' :: (List.replicate n '0' ++ ds)) ['0'] (List.replicate n '0' ++ ds)
      (value ds / 10 ^ (n + ds.length)) where
  text_eq := rfl
  whole_ne := List.cons_ne_nil _ _
  fraction_ne := List.append_ne_nil_of_right_ne_nil _ hne
  digits := by
    have hall : ∀ c ∈ List.replicate (1 + n) '0' ++ ds, c.isDigit = true :=
      List.forall_mem_append.2 ⟨isDigit_of_mem_replicate _, hdigits⟩
    rwa [List.replicate_add, List.append_assoc] at hall
  value_eq := by
    have hvalue := value_replicate_append (1 + n) ds
    rw [List.replicate_add, List.append_assoc] at hvalue
    rw [List.length_append, List.length_replicate]
    exact congrArg (fun v : ℕ => (v / 10 ^ (n + ds.length) : ℚ)) hvalue

/-- The point stands behind the digits and more zeros. -/
lemma pointed_behind (hne : ds ≠ []) (hdigits : ∀ c ∈ ds, c.isDigit = true) (n : ℕ) :
    Pointed (ds ++ List.replicate n '0' ++ ['.', '0']) (ds ++ List.replicate n '0') ['0']
      (value ds * 10 ^ n) where
  text_eq := rfl
  whole_ne := List.append_ne_nil_of_left_ne_nil hne _
  fraction_ne := List.cons_ne_nil _ _
  digits := by
    have hall : ∀ c ∈ ds ++ List.replicate (n + 1) '0', c.isDigit = true :=
      List.forall_mem_append.2 ⟨hdigits, isDigit_of_mem_replicate _⟩
    rwa [List.replicate_add, ← List.append_assoc] at hall
  value_eq := by
    have hvalue := value_append_replicate ds (n + 1)
    rw [List.replicate_add, ← List.append_assoc, List.replicate_one] at hvalue
    rw [hvalue, List.length_singleton]
    push_cast
    field_simp
    ring

/-- The point stands among the digits. -/
lemma pointed_among (hdigits : ∀ c ∈ ds, c.isDigit = true) {n : ℕ} (hn : 0 < n)
    (hlt : n < ds.length) :
    Pointed (ds.take n ++ '.' :: ds.drop n) (ds.take n) (ds.drop n)
      (value ds / 10 ^ (ds.length - n)) where
  text_eq := rfl
  whole_ne := List.ne_nil_of_length_pos (by rw [List.length_take]; omega)
  fraction_ne := List.ne_nil_of_length_pos (by rw [List.length_drop]; omega)
  digits := by rwa [List.take_append_drop]
  value_eq := by rw [List.take_append_drop, List.length_drop]

/-- A point in front of the last places divides by a power of ten. -/
lemma div_ten_pow_eq {n : ℕ} (h : (n : ℤ) = -k) (v : ℚ) : v / 10 ^ n = v * 10 ^ k := by
  obtain rfl : k = -n := by omega
  rw [zpow_neg, zpow_natCast, div_eq_mul_inv]

/-- **Positional notation** is digits, a point and digits, which denote the decimal. -/
lemma exists_pointed_positional (d : ℕ) (k : ℤ) :
    ∃ whole fraction,
      Pointed (calculator.positional (natural d) (k + ((natural d).length - 1 : ℕ))) whole fraction
        (d * 10 ^ k) := by
  have hvalue : value (natural d) = d := value_natural d
  have hpos : 0 < (natural d).length := Nat.length_toDigits_pos
  have hdigits : ∀ c ∈ natural d, c.isDigit = true := fun c hc => isDigit_of_mem_natural hc
  have hne : natural d ≠ [] := List.ne_nil_of_length_pos hpos
  generalize natural d = ds at *
  rw [Layout.positional, ← hvalue]
  split
  case isTrue hlead =>
    rw [← div_ten_pow_eq (n := (-(k + ((ds.length - 1 : ℕ) : ℤ)) - 1).toNat + ds.length) (by omega)]
    exact ⟨_, _, pointed_before hne hdigits _⟩
  case isFalse hlead =>
    dsimp only
    generalize hn : (k + ((ds.length - 1 : ℕ) : ℤ)).toNat + 1 = n
    split
    case isTrue hwhole =>
      have hk : k = (n - ds.length : ℕ) := by omega
      have hpointed := pointed_behind hne hdigits (n - ds.length)
      rw [← zpow_natCast, ← hk] at hpointed
      exact ⟨_, _, hpointed⟩
    case isFalse hwhole =>
      have hk : ((ds.length - n : ℕ) : ℤ) = -k := by omega
      rw [← div_ten_pow_eq hk]
      exact ⟨_, _, pointed_among hdigits (by omega) (by omega)⟩

/-! ### Doubles -/

/-- The first digit of a decimal between `10 ^ -4` and `10 ^ 16` stands for a power of ten between
them. -/
lemma lead_bounds (hlow : (10 : ℚ) ^ (-4 : ℤ) ≤ d * 10 ^ k) (hhigh : (d * 10 ^ k : ℚ) < 10 ^ 16) :
    -4 ≤ k + ((natural d).length - 1 : ℕ) ∧ k + ((natural d).length - 1 : ℕ) ≤ 15 := by
  have hpower : (0 : ℚ) < 10 ^ k := by positivity
  have hd : 0 < d := by
    by_contra hzero
    obtain rfl : d = 0 := by omega
    rw [Nat.cast_zero, zero_mul] at hlow
    exact absurd hlow (not_le.2 (by positivity))
  have hpos : 0 < (natural d).length := Nat.length_toDigits_pos
  have hle : (10 : ℚ) ^ ((natural d).length - 1) ≤ d := by
    exact_mod_cast ten_pow_length_natural_le hd
  have hlt : (d : ℚ) < 10 ^ (natural d).length := by exact_mod_cast lt_ten_pow_length_natural d
  have hbelow : (10 : ℚ) ^ (-4 : ℤ) < 10 ^ (((natural d).length : ℤ) + k) := by
    rw [zpow_add₀ (by norm_num), zpow_natCast]
    exact hlow.trans_lt (mul_lt_mul_of_pos_right hlt hpower)
  have habove : (10 : ℚ) ^ ((((natural d).length - 1 : ℕ) : ℤ) + k) < 10 ^ (16 : ℤ) := by
    rw [zpow_add₀ (by norm_num), zpow_natCast]
    exact (mul_le_mul_of_nonneg_right hle hpower.le).trans_lt hhigh
  rw [zpow_lt_zpow_iff_right₀ (by norm_num)] at hbelow habove
  omega

/-- The shortest decimal of a double from `10 ^ -4` up to but without `10 ^ 16` lies between these
numbers too. The double next to `10 ^ -4` is greater, but `10 ^ -4` is its shortest decimal. -/
lemma shortest_bounds (h : Normal m e) (hlow : -66 < e ∨ -66 = e ∧ 7378697629483821 ≤ m)
    (hhigh : e < 1 ∨ e = 1 ∧ m < 5000000000000000) :
    (10 : ℚ) ^ (-4 : ℤ) ≤ (shortest m e).toRat ∧ (shortest m e).toRat < 10 ^ 16 := by
  have hcovers := covers_shortest h
  have hle := h.le
  have hlt := h.lt
  constructor
  · have habove : (Cell.ofBinary m e).low * 2 ^ (e - 2) ≤ (shortest m e).toRat := hcovers.low_le
    have hlowest : 4 * m - 2 ≤ (Cell.ofBinary m e).low := by
      simp only [Cell.ofBinary]
      split <;> omega
    rcases hlow with he | ⟨rfl, hm⟩
    · have hlow' : (2 ^ 54 - 2 : ℕ) ≤ (Cell.ofBinary m e).low := le_trans (by omega) hlowest
      calc (10 : ℚ) ^ (-4 : ℤ) ≤ ((2 ^ 54 - 2 : ℕ) : ℚ) * 2 ^ (-67 : ℤ) := by norm_num
        _ ≤ (Cell.ofBinary m e).low * 2 ^ (e - 2) := by
          gcongr
          · norm_num
          · omega
        _ ≤ (shortest m e).toRat := habove
    · rcases eq_or_lt_of_le hm with rfl | hm
      · -- The bounds of the cell are no help here, so the decimal is computed.
        have hshortest : shortest 7378697629483821 (-66) = ⟨1, -4⟩ := by decide +kernel
        rw [hshortest, Scientific.toRat]
        norm_num
      · have hlow' : 29514790517935286 ≤ (Cell.ofBinary m (-66)).low := le_trans (by omega) hlowest
        calc (10 : ℚ) ^ (-4 : ℤ) ≤ (29514790517935286 : ℕ) * 2 ^ (-66 - 2 : ℤ) := by norm_num
          _ ≤ (Cell.ofBinary m (-66)).low * 2 ^ (-66 - 2 : ℤ) := by gcongr
          _ ≤ (shortest m (-66)).toRat := habove
  · rcases hhigh with he | ⟨rfl, hm⟩
    · calc (shortest m e).toRat < 2 ^ (e + 53) := h.lt_of_covers hcovers
        _ ≤ 2 ^ (53 : ℤ) := zpow_le_zpow_right₀ (by norm_num) (by omega)
        _ < 10 ^ 16 := by norm_num
    · have hhigh' : (Cell.ofBinary m 1).high ≤ 4 * 4999999999999999 + 2 := by
        simp only [Cell.ofBinary]
        omega
      calc (shortest m 1).toRat ≤ (Cell.ofBinary m 1).high * 2 ^ (1 - 2 : ℤ) := hcovers.le_high
        _ ≤ ((4 * 4999999999999999 + 2 : ℕ) : ℚ) * 2 ^ (1 - 2 : ℤ) := by gcongr
        _ < 10 ^ 16 := by norm_num

/-- A normal double is written with the digits of its shortest decimal. -/
lemma Represents.float_eq (h : Represents x m e)
    (hlow : -4 ≤ (shortest m e).exponent + ((natural (shortest m e).digits).length - 1 : ℕ))
    (hhigh : (shortest m e).exponent + ((natural (shortest m e).digits).length - 1 : ℕ) ≤ 15) :
    float x = calculator.positional (natural (shortest m e).digits)
      ((shortest m e).exponent + ((natural (shortest m e).digits).length - 1 : ℕ)) := by
  have hpos := h.normal.pos
  obtain ⟨n, rfl⟩ : ∃ n, m = n + 1 := ⟨m - 1, by omega⟩
  rw [float, Layout.float, h.ofFloat_eq]
  simp only [Layout.magnitude]
  rw [if_neg (by simp), if_pos ⟨hlow, hhigh⟩]

/-- **The doubles from `10 ^ -4` up to but without `10 ^ 16`, and zero,** are written in positional
notation, and what is written reads back. -/
lemma exists_pointed_float (h : x = 0.0 ∨ 1e-4 ≤ x ∧ x < 1e16) :
    ∃ whole fraction v, Pointed (float x) whole fraction v ∧
      nearest (whole ++ fraction) (-fraction.length) = x := by
  rcases h with rfl | ⟨hlow, hhigh⟩
  · have hzero : float 0.0 = ['0'] ++ '.' :: ['0'] := by decide +kernel
    have hvalue : (value (['0'] ++ ['0']) / 10 ^ 1 : ℚ) = 0 := by
      have hdigits : value (['0'] ++ ['0']) = 0 := rfl
      rw [hdigits, Nat.cast_zero, zero_div]
    have hnearest : nearest (['0'] ++ ['0']) (-1) = 0.0 := by decide +kernel
    exact ⟨['0'], ['0'], 0, ⟨hzero, List.cons_ne_nil _ _, List.cons_ne_nil _ _,
      isDigit_of_mem_replicate 2, hvalue⟩, hnearest⟩
  · obtain ⟨m, e, hx, hm, hm'⟩ := exists_represents hlow hhigh
    obtain ⟨hleast, hgreatest⟩ := shortest_bounds hx.normal hm hm'
    obtain ⟨hlead, hlead'⟩ := lead_bounds hleast hgreatest
    obtain ⟨whole, fraction, hpointed⟩ :=
      exists_pointed_positional (shortest m e).digits (shortest m e).exponent
    rw [← hx.float_eq hlead hlead'] at hpointed
    refine ⟨whole, fraction, _, hpointed, hx.nearest_eq ?_ ?_⟩
    · exact List.length_pos_of_ne_nil hpointed.fraction_ne
    · rw [hpointed.value_eq]
      exact covers_shortest hx.normal

end Reckon.Decimal
