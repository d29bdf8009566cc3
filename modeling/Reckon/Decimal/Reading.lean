import Reckon.Decimal.Layout

/-!
Reading decimals.

* `value`: the number that a list of digits denotes;
* `nearest`: the double nearest to a list of digits times a power of ten;
* `readFloat?`: reads a double from decimal notation with or without an
  exponent, or from the text of infinity or of what is not a number.
-/

namespace Reckon.Decimal

/-- The number that the digits denote, any number of zeros in front. -/
def value (digits : List Char) : Nat := Nat.ofDigitChars 10 digits 0

/-- The double nearest to `digits · 10 ^ exponent`, of two equally near the one
with the even significand. -/
def nearest (digits : List Char) (exponent : Int) : Float :=
  Float.ofScientific (value digits) (exponent < 0) exponent.natAbs

/-- Writing a natural number and reading its digits gives it back. -/
theorem value_natural (n : Nat) : value (natural n) = n :=
  Nat.ofDigitChars_ten_toDigits

/-- A natural number is written with digits only. -/
theorem isDigit_of_mem_natural {n : Nat} {c : Char} (h : c ∈ natural n) : c.isDigit = true :=
  Nat.isDigit_of_mem_toDigits (by decide) (by decide) h

/-- Brings an exponent nearer to zero. With `count` digits, any exponent beyond
the bound makes the number zero or infinite, whatever the digits are, so no
greater power of ten is ever formed. -/
def clampExponent (count : Nat) (exponent : Int) : Int :=
  max (-(400 + count : Int)) (min exponent (400 + count))

/-- Reads an exponent with an optional sign. -/
def readExponent? (cs : List Char) : Option Int :=
  let digits := match cs with
    | '-' :: rest => rest
    | '+' :: rest => rest
    | _ => cs
  if digits.isEmpty || !digits.all Char.isDigit then none
  else some (if cs.head? = some '-' then -(value digits : Int) else value digits)

/-- Reads what follows the digits: nothing, or an exponent. -/
def readScale? : List Char → Option Int
  | [] => some 0
  | c :: rest => if c = 'e' ∨ c = 'E' then readExponent? rest else none

/-- Reads a number without sign. -/
def readMagnitude? (cs : List Char) : Option Float :=
  if cs = calculator.infinite then some (1.0 / 0.0)
  else if cs = calculator.nan then some (0.0 / 0.0)
  else
    let whole := cs.takeWhile Char.isDigit
    let afterWhole := cs.dropWhile Char.isDigit
    let (fraction, afterFraction) := match afterWhole with
      | '.' :: rest => (rest.takeWhile Char.isDigit, rest.dropWhile Char.isDigit)
      | _ => ([], afterWhole)
    let digits := whole ++ fraction
    if digits.isEmpty then none
    else (readScale? afterFraction).map fun scale =>
      nearest digits (clampExponent digits.length scale - fraction.length)

/-- Reads a double. -/
def readFloat? : List Char → Option Float
  | '-' :: rest => (readMagnitude? rest).map fun x => -x
  | cs => readMagnitude? cs

/-! ### Doubles at the edges of the notation, written and read -/

example : float 0.1 = "0.1".toList ∧ readFloat? (float 0.1) = some 0.1 := by decide +kernel

example : float 1e15 = "1000000000000000.0".toList ∧ float 1e16 = "1e16".toList := by
  decide +kernel

example : float 0.0001 = "0.0001".toList ∧ float 0.00015e-3 = "1.5e-7".toList := by
  decide +kernel

example : float (-0.0) = "-0.0".toList ∧ readFloat? (float (-0.0)) = some (-0.0) := by
  decide +kernel

example : float 5e-324 = "5e-324".toList ∧ readFloat? (float 5e-324) = some 5e-324 := by
  decide +kernel

end Reckon.Decimal
