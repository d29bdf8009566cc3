import Reckon.Decimal.Shortest

/-!
How numbers are written.

* `integer`: the digits of an integer, with a sign in front of a negative
  one;
* `Layout`: the decisions of a format for doubles, and `Layout.float`, the
  text of a double in it;
* `calculator`: the format of this calculator, and `float`, a double
  written in it.
-/

namespace Reckon.Decimal

/-- The decimal digits of a natural number. -/
def natural (n : Nat) : List Char := Nat.toDigits 10 n

/-- The decimal digits of an integer after its sign, if it is negative. -/
def integer (n : Int) : List Char :=
  if n < 0 then '-' :: natural n.natAbs else natural n.natAbs

/-- The decisions of a format for doubles. The exponent of ten of a number is
the one its first digit stands for. -/
structure Layout where
  /-- The least exponent of ten that is written in positional notation. -/
  leastPositional : Int
  /-- The greatest exponent of ten that is written in positional notation. -/
  greatestPositional : Int
  /-- What ends a whole number in positional notation. -/
  wholeEnd : List Char
  /-- What stands between the digits and the exponent elsewhere. -/
  exponentMark : List Char
  infinite : List Char
  nan : List Char

namespace Layout

/-- The digits `ds`, the first of which stands for `10 ^ lead`, in positional
notation. -/
def positional (l : Layout) (ds : List Char) (lead : Int) : List Char :=
  if lead < 0 then
    '0' :: '.' :: (List.replicate (-lead - 1).toNat '0' ++ ds)
  else
    let whole := lead.toNat + 1
    if ds.length ≤ whole then
      ds ++ List.replicate (whole - ds.length) '0' ++ l.wholeEnd
    else
      ds.take whole ++ '.' :: ds.drop whole

/-- The digits `ds`, the first of which stands for `10 ^ lead`, with one digit
before the point and the exponent written out. -/
def scientific (l : Layout) (ds : List Char) (lead : Int) : List Char :=
  let fraction := ds.drop 1
  let point := if fraction.isEmpty then [] else ['.']
  ds.take 1 ++ point ++ fraction ++ l.exponentMark ++ integer lead

/-- The text of a magnitude: zero is positional, any other number is written
with its shortest digits. -/
def magnitude (l : Layout) : Magnitude → List Char
  | .infinite => l.infinite
  | .nan => l.nan
  | .finite 0 _ => l.positional ['0'] 0
  | .finite significand exponent =>
      let decimal := shortest significand exponent
      let ds := natural decimal.digits
      let lead := decimal.exponent + (ds.length - 1 : Nat)
      if l.leastPositional ≤ lead ∧ lead ≤ l.greatestPositional then
        l.positional ds lead
      else
        l.scientific ds lead

/-- The text of a double; what is not a number has no sign. -/
def float (l : Layout) (x : Float) : List Char :=
  let decoded := Binary64.ofFloat x
  let text := l.magnitude decoded.magnitude
  if decoded.negative ∧ decoded.magnitude ≠ .nan then '-' :: text else text

end Layout

/-- Numbers from `10 ^ -4` up to but without `10 ^ 16` are positional and keep a
fractional part, the others have an exponent. -/
def calculator : Layout where
  leastPositional := -4
  greatestPositional := 15
  wholeEnd := ['.', '0']
  exponentMark := ['e']
  infinite := ['i', 'n', 'f']
  nan := ['N', 'a', 'N']

/-- The text of a double in the calculator's format. -/
def float (x : Float) : List Char := calculator.float x

end Reckon.Decimal
