/-!
What a double stands for.

* `Magnitude`: a finite number `significand · 2 ^ exponent`, infinity, or
  no number at all;
* `ofFloat`: the sign and the magnitude of a double, read off its 64 bits.
-/

namespace Reckon.Decimal

/-- The absolute value of a double. -/
inductive Magnitude where
  /-- The number `significand · 2 ^ exponent`. -/
  | finite (significand : Nat) (exponent : Int)
  | infinite
  | nan
deriving DecidableEq, Repr

/-- A double as a sign and a magnitude. -/
structure Binary64 where
  negative : Bool
  magnitude : Magnitude
deriving DecidableEq, Repr

namespace Binary64

/-- The number of values of the fraction field, and the significand at which
the normal doubles of one exponent start. -/
def fractionCount : Nat := Nat.pow 2 52

/-- The exponent of the last place of the subnormal doubles. -/
def leastExponent : Int := -1074

/-- Reads the magnitude off the exponent field and the fraction field. -/
def magnitudeOfFields (exponent fraction : Nat) : Magnitude :=
  if exponent = 2047 then
    if fraction = 0 then .infinite else .nan
  else if exponent = 0 then
    .finite fraction leastExponent
  else
    .finite (fractionCount + fraction) (leastExponent + (exponent - 1 : Nat))

/-- The sign and the magnitude of a double. -/
def ofFloat (x : Float) : Binary64 :=
  let bits := x.toBits.toNat
  { negative := Nat.pow 2 63 ≤ bits
    magnitude := magnitudeOfFields (bits / fractionCount % 2048) (bits % fractionCount) }

end Binary64

end Reckon.Decimal
