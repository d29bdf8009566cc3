import Reckon.Proofs.Decimal.Rounding

/-!
Doubles and their bits.

A double is known here by the significand and the exponent that it is
unpacked to, which are read off its 64 bits. For a normal double they
determine the bits, so packing them gives the double back, and they are what
the calculator reads off the bits when it writes the double.

* `Represents`: a double is the number with this significand and exponent;
* `normal_of_unpack`: what is unpacked is normal, unless its exponent is the
  least one;
* `Normal.unpack_pack` and `Represents.eq_pack`: packing and unpacking;
* `Represents.ofFloat_eq`: what the calculator reads off the bits;
* `exists_represents`: the doubles between two bounds are normal.
-/

namespace Reckon.Decimal

open Float.Model Float.Model.UnpackedFloat

variable {m : ℕ} {e : ℤ} {x : Float} {b : BitVec Format.binary64.numBits} {hm : 0 < m}
  {sign : Sign} {E : BitVec 11} {M : BitVec 52}

/-! ### Bits -/

/-- The implicit bit of a normal double stands in front of the others. -/
lemma toNat_one_append (v : BitVec 52) : (1#1 ++ v).toNat = 2 ^ 52 + v.toNat := by
  rw [BitVec.toNat_append, ← Nat.shiftLeft_add_eq_or_of_lt v.isLt]
  rfl

lemma toNat_packComponents :
    (packComponents Format.binary64 .positive E M).toNat = E.toNat * 2 ^ 52 + M.toNat := by
  rw [packComponents, BitVec.toNat_append, ← Nat.shiftLeft_add_eq_or_of_lt M.isLt,
    BitVec.toNat_append, Nat.shiftLeft_eq]
  simp [Sign.toBitVec]

lemma unpack_packComponents (hE : E ≠ -1#11) (hE' : E ≠ 0#11) :
    UnpackedFloat.unpack Format.binary64 (packComponents Format.binary64 sign E M) =
      .finite sign (2 ^ 52 + M.toNat) (E.toNat - 1075)
        (Nat.add_pos_left (Nat.two_pow_pos 52) _) := by
  have hbias : (Format.binary64.exponentBias : ℤ) + Format.binary64.mantissaBitsWithoutImplicit =
      1075 := rfl
  simp only [UnpackedFloat.unpack, unpackMantissa_packComponents, unpackExponent_packComponents,
    unpackSign_packComponents, Sign.ofBitVec_toBitVec, hbias, toNat_one_append]
  rw [if_neg hE, if_neg hE']

/-- Bits that are unpacked to a positive number have the least exponent or are those of a normal
double. -/
lemma normal_of_unpack (h : UnpackedFloat.unpack Format.binary64 b = .finite .positive m e hm) :
    e = -1074 ∨ Normal m e := by
  have hbias : (Format.binary64.exponentBias : ℤ) + Format.binary64.mantissaBitsWithoutImplicit =
      1075 := rfl
  simp only [UnpackedFloat.unpack, hbias] at h
  split_ifs at h with hE hM hE' hM'
  · obtain ⟨-, -, he⟩ := UnpackedFloat.finite.inj h
    rw [hE'] at he
    exact .inl he.symm
  · obtain ⟨-, hm', he⟩ := UnpackedFloat.finite.inj h
    have hsignificand : m = 2 ^ 52 + (unpackMantissa b).toNat := hm'.symm.trans (toNat_one_append _)
    have hM : (unpackMantissa b).toNat < 2 ^ 52 := (unpackMantissa b).isLt
    have hexponent : (unpackExponent b).toNat < 2 ^ 11 := (unpackExponent b).isLt
    have hfinite : (unpackExponent b).toNat ≠ 2047 := fun heq => hE (BitVec.eq_of_toNat_eq heq)
    have hnonzero : (unpackExponent b).toNat ≠ 0 := fun heq => hE' (BitVec.eq_of_toNat_eq heq)
    by_cases hone : e = -1074
    · exact .inl hone
    · exact .inr ⟨by omega, by omega, by omega, by omega⟩

/-! ### Normal doubles -/

/-- The double is the number `m · 2 ^ e`, and normal. -/
structure Represents (x : Float) (m : ℕ) (e : ℤ) : Prop where
  normal : Normal m e
  unpack : x.toModel.unpack = .finite .positive m e normal.pos

/-- The exponent field of a normal double. -/
lemma Normal.toNat_exponent (h : Normal m e) :
    (BitVec.ofNat 11 (e + 1075).toNat).toNat = (e + 1075).toNat := by
  have hgreatest := h.greatest
  rw [BitVec.toNat_ofNat, Nat.mod_eq_of_lt]
  omega

/-- The fraction field of a normal double. -/
lemma Normal.toNat_fraction (h : Normal m e) : (BitVec.ofNat 52 m).toNat = m - 2 ^ 52 := by
  have hle := h.le
  have hlt := h.lt
  rw [BitVec.toNat_ofNat]
  omega

/-- A normal double is packed into its fields. -/
lemma Normal.pack (h : Normal m e) :
    UnpackedFloat.pack Format.binary64 (.finite sign m e h.pos) =
      packComponents Format.binary64 sign (BitVec.ofNat 11 (e + 1075).toNat)
        (BitVec.ofNat 52 m) := by
  have hlog : m.log2 + 1 = Format.binary64.mantissaBits := by
    rw [(Nat.log2_eq_iff h.pos.ne').2 ⟨h.le, h.lt⟩]
    rfl
  have hexponent : e + (Format.binary64.exponentBias : ℤ) +
      (Format.binary64.mantissaBitsWithoutImplicit : ℤ) = e + 1075 :=
    add_assoc e 1023 52
  have hfinite : ¬ 2 ^ Format.binary64.exponentBits ≤ (e + 1075).toNat + 1 := by
    have hgreatest := h.greatest
    show ¬ 2 ^ 11 ≤ (e + 1075).toNat + 1
    omega
  simp only [UnpackedFloat.pack, hexponent]
  rw [if_neg hfinite, if_pos hlog]

/-- A normal double is unpacked to what was packed. -/
lemma Normal.unpack_pack (h : Normal m e) :
    (Float.Model.pack (.finite sign m e h.pos)).unpack = .finite sign m e h.pos := by
  have hle := h.le
  have hleast := h.least
  have hgreatest := h.greatest
  have hE := h.toNat_exponent
  have hne : ∀ v : BitVec 11, v.toNat ≠ (e + 1075).toNat →
      BitVec.ofNat 11 (e + 1075).toNat ≠ v := fun v hv heq => hv (by rw [← heq, hE])
  show UnpackedFloat.unpack Format.binary64 (UnpackedFloat.pack Format.binary64 _) = _
  rw [h.pack, unpack_packComponents (hne _ ?_) (hne _ ?_)]
  · rw [UnpackedFloat.finite.injEq]
    refine ⟨rfl, ?_, ?_⟩
    · rw [h.toNat_fraction]
      omega
    · rw [hE]
      omega
  · show 2047 ≠ _
    omega
  · show 0 ≠ _
    omega

/-- The bits of a normal double. -/
lemma Represents.toBitVec_eq (h : Represents x m e) : x.toModel.toBits.toBitVec =
    packComponents Format.binary64 .positive (BitVec.ofNat 11 (e + 1075).toNat)
      (BitVec.ofNat 52 m) :=
  calc x.toModel.toBits.toBitVec
    _ = UnpackedFloat.pack Format.binary64 x.toModel.unpack :=
      (pack_unpack_of_valid x.toModel.valid).symm
    _ = _ := (congrArg (UnpackedFloat.pack Format.binary64) h.unpack).trans h.normal.pack

/-- A normal double is what its number is packed to. -/
lemma Represents.eq_pack (h : Represents x m e) :
    x = .ofModel (.pack (.finite .positive m e h.normal.pos)) :=
  Float.toBits_inj.1 (congrArg UInt64.ofBitVec (h.toBitVec_eq.trans h.normal.pack.symm))

/-- What is written of a normal double is its significand and its exponent. -/
lemma Represents.ofFloat_eq (h : Represents x m e) :
    Binary64.ofFloat x = ⟨false, .finite m e⟩ := by
  have hle := h.normal.le
  have hlt := h.normal.lt
  have hleast := h.normal.least
  have hgreatest := h.normal.greatest
  have hbits : x.toBits.toNat = (e + 1075).toNat * 2 ^ 52 + (m - 2 ^ 52) := by
    show x.toModel.toBits.toBitVec.toNat = _
    rw [h.toBitVec_eq, toNat_packComponents, h.normal.toNat_exponent, h.normal.toNat_fraction]
  have hsign : ¬ 2 ^ 63 ≤ x.toBits.toNat := by omega
  have hexponent : x.toBits.toNat / 2 ^ 52 % 2048 = (e + 1075).toNat := by omega
  have hfraction : x.toBits.toNat % 2 ^ 52 = m - 2 ^ 52 := by omega
  simp only [Binary64.ofFloat, Binary64.fractionCount, Nat.pow_eq, hexponent, hfraction, hsign,
    Binary64.magnitudeOfFields]
  rw [if_neg (by omega), if_neg (by omega)]
  simp only [Binary64.mk.injEq, Magnitude.finite.injEq, Binary64.leastExponent]
  exact ⟨rfl, by omega, by omega⟩

/-! ### Comparison -/

variable {u : UnpackedFloat} {m₀ : ℕ} {e₀ : ℤ} {hm₀ : 0 < m₀}

/-- What is at least a positive number is infinite or has a greater exponent, or the same exponent
and a significand that is at least as large. -/
lemma finite_of_le (h : UnpackedFloat.le (.finite .positive m₀ e₀ hm₀) u = true) :
    u = .infinity .positive ∨
      ∃ m e hm, u = .finite .positive m e hm ∧ (e₀ < e ∨ e₀ = e ∧ m₀ ≤ m) := by
  match u with
  | .infinity .positive => exact .inl rfl
  | .infinity .negative | .notANumber | .zero _ | .finite .negative .. => cases h
  | .finite .positive m e hm =>
    have hcompare : ((compare e₀ e).then (compare m₀ m)).isLE = true := h
    rw [Ordering.isLE_then_iff_or, Int.compare_eq_lt, Int.compare_eq_eq, Nat.isLE_compare]
      at hcompare
    exact .inr ⟨m, e, hm, rfl, hcompare⟩

/-- A positive number is below another one if its exponent is less, or if the exponents are the
same and its significand is less. -/
lemma lt_of_finite_lt (h : UnpackedFloat.lt (.finite .positive m e hm) (.finite .positive m₀ e₀ hm₀)
    = true) : e < e₀ ∨ e = e₀ ∧ m < m₀ := by
  have hcompare : (compare e e₀).then (compare m m₀) = .lt := Option.some.inj (eq_of_beq h)
  rwa [Ordering.then_eq_lt, Int.compare_eq_lt, Int.compare_eq_eq, Nat.compare_eq_lt] at hcompare

/-- **The doubles from `10 ^ -4` up to but without `10 ^ 16`** are normal. -/
lemma exists_represents (hlow : 1e-4 ≤ x) (hhigh : x < 1e16) :
    ∃ m e, Represents x m e ∧ (-66 < e ∨ -66 = e ∧ 7378697629483821 ≤ m) ∧
      (e < 1 ∨ e = 1 ∧ m < 5000000000000000) := by
  have hfirst : (1e-4 : Float).toModel.unpack =
      .finite .positive 7378697629483821 (-66) (by decide) := by rfl
  have hlast : (1e16 : Float).toModel.unpack =
      .finite .positive 5000000000000000 1 (by decide) := by rfl
  have hle : UnpackedFloat.le (1e-4 : Float).toModel.unpack x.toModel.unpack = true :=
    of_decide_eq_true hlow
  have hlt : UnpackedFloat.lt x.toModel.unpack (1e16 : Float).toModel.unpack = true :=
    of_decide_eq_true hhigh
  rw [hfirst] at hle
  rw [hlast] at hlt
  rcases finite_of_le hle with hinf | ⟨m, e, hm, hu, hbelow⟩
  · rw [hinf] at hlt
    cases hlt
  · rw [hu] at hlt
    have habove := lt_of_finite_lt hlt
    rcases normal_of_unpack hu with he | hnormal
    · omega
    · exact ⟨m, e, ⟨hnormal, hu⟩, hbelow, habove⟩

end Reckon.Decimal
