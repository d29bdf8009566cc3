import Reckon.Decimal.Binary64

/-!
The shortest decimal of a double.

Many decimals read back as the same double: those between the middles to
its two neighbours. The shortest of them is looked for on the grids of
multiples of `10 ^ k`, the coarsest first, and all comparisons are between
natural numbers.

* `Cell`: the decimals that read back as one double, in quarters of its
  last place;
* `Cell.onGrid?`: the multiple of `10 ^ k` in the cell that is nearest to
  the double, the larger one of two equally near;
* `shortest`: the first hit on a grid, from the coarsest down.
-/

namespace Reckon.Decimal

/-- The positive number `digits · 10 ^ exponent`. -/
structure Scientific where
  digits : Nat
  exponent : Int
deriving DecidableEq, Repr

/-- The numbers that read back as one double: those between `low` and `high`
quarters of its last place, the two ends belonging to it or not. -/
structure Cell where
  low : Nat
  middle : Nat
  high : Nat
  /-- The exponent of two of a quarter. -/
  exponent : Int
  closed : Bool
deriving DecidableEq, Repr

namespace Cell

/-- The cell of `significand · 2 ^ exponent`. Below the first significand of a
binade the doubles lie twice as close, except at the very bottom. A tie reads
as the even significand, so the ends belong to even ones. -/
def ofBinary (significand : Nat) (exponent : Int) : Cell where
  low :=
    if significand = Binary64.fractionCount ∧ exponent ≠ Binary64.leastExponent then
      4 * significand - 1
    else
      4 * significand - 2
  middle := 4 * significand
  high := 4 * significand + 2
  exponent := exponent - 2
  closed := significand % 2 = 0

/-- How many times the grid unit and the quarter are multiplied to make both
`10 ^ k` and `2 ^ exponent` natural numbers. -/
def gridUnit (c : Cell) (k : Int) : Nat :=
  Nat.pow 10 k.toNat * Nat.pow 2 (-c.exponent).toNat

/-- The quarter, on the scale of `gridUnit`. -/
def quarter (c : Cell) (k : Int) : Nat :=
  Nat.pow 2 c.exponent.toNat * Nat.pow 10 (-k).toNat

/-- The decimal `d · 10 ^ k` lies in the cell. -/
def contains (c : Cell) (k : Int) (d : Nat) : Bool :=
  let x := d * c.gridUnit k
  let low := c.low * c.quarter k
  let high := c.high * c.quarter k
  if c.closed then low ≤ x && x ≤ high else low < x && x < high

/-- The multiple of `10 ^ k` that lies in the cell nearest to its middle. -/
def onGrid? (c : Cell) (k : Int) : Option Nat :=
  let unit := c.gridUnit k
  let middle := c.middle * c.quarter k
  let below := middle / unit
  match c.contains k below, c.contains k (below + 1) with
  | true, true =>
      if 2 * (middle - below * unit) < unit then some below else some (below + 1)
  | true, false => some below
  | false, true => some (below + 1)
  | false, false => none

/-- The first decimal of the cell on the grids of `10 ^ k`, `10 ^ (k - 1)` and
so on; the last grid gives its nearest point below if none has a hit. -/
def search (c : Cell) : Nat → Int → Scientific
  | 0, k => ⟨c.middle * c.quarter k / c.gridUnit k, k⟩
  | more + 1, k =>
      match c.onGrid? k with
      | some d => ⟨d, k⟩
      | none => search c more (k - 1)

/-- An exponent of ten above every decimal of the cell. A binary place is
worth about `0.30103` decimal ones. -/
def topExponent (c : Cell) : Int :=
  (c.high.log2 + 1 + c.exponent) * 30103 / 100000 + 1

end Cell

/-- The shortest decimal that reads back as the positive double
`significand · 2 ^ exponent`, and the nearest to it of those. Seventeen digits
always suffice, so twenty-four grids do. -/
def shortest (significand : Nat) (exponent : Int) : Scientific :=
  let cell := Cell.ofBinary significand exponent
  cell.search 24 cell.topExponent

end Reckon.Decimal
