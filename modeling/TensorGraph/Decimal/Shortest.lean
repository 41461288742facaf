/-!
# TensorGraph.Decimal.Shortest

Shortest decimals of binary floating-point numbers.

* `RoundingInterval.around`: the reals that round to a given number.
* `shortestDecimal`: of the decimals that round to a given number, one with the fewest digits,
  and of those the nearest.

A number is given as `m · 2^e`, and all arithmetic is exact, on natural numbers. A decimal grid
is the set of multiples of a power of ten. The coarsest grid that meets the rounding interval of
a number holds its shortest decimals, and one of the number's two neighbours on that grid is the
nearest of them.
-/

namespace TensorGraph

open Float.Model (Format UnpackedFloat)

/-- The decimal `digits · 10^exponent`. -/
structure Decimal where
  digits : Nat
  exponent : Int
  deriving DecidableEq

/-- The reals that round to one number: `value / scale` is the number, `low / scale` and
`high / scale` are the ends, which belong to the interval exactly when `closed` holds. -/
structure RoundingInterval where
  low : Nat
  value : Nat
  high : Nat
  scale : Nat
  closed : Bool

namespace RoundingInterval

/-- The interval around `m · 2^e`. Just below a power of two, numbers lie twice as dense as
above it, so the lower end is half as far away. -/
def around (f : Format) (m : Nat) (e : Int) : RoundingInterval :=
  let below := if m = Nat.pow 2 f.mantissaBitsWithoutImplicit ∧ f.minExponent < e then 1 else 2
  let unit := Nat.pow 2 (e - 2).toNat
  { low := (4 * m - below) * unit
    value := 4 * m * unit
    high := (4 * m + 2) * unit
    scale := Nat.pow 2 (2 - e).toNat
    closed := m % 2 == 0 }

/-- The same interval in units of `10^k`. -/
def inUnits (r : RoundingInterval) (k : Int) : RoundingInterval :=
  let finer := Nat.pow 10 (-k).toNat
  { low := r.low * finer
    value := r.value * finer
    high := r.high * finer
    scale := r.scale * Nat.pow 10 k.toNat
    closed := r.closed }

/-- Whether the integer `d` lies in the interval. -/
def holds (r : RoundingInterval) (d : Nat) : Bool :=
  let x := d * r.scale
  if r.closed then r.low ≤ x && x ≤ r.high else r.low < x && x < r.high

/-- The integer of the interval nearest to its value, if there is one. Of two equally near ones
it is the greater if `tieUp`, else the even one. -/
def nearest? (r : RoundingInterval) (tieUp : Bool) : Option Nat :=
  let d := r.value / r.scale
  let rest := r.value % r.scale * 2
  let up := r.scale < rest || (rest == r.scale && (tieUp || d % 2 == 1))
  match r.holds d, r.holds (d + 1) with
  | true, true => some (if up then d + 1 else d)
  | true, false => some d
  | false, true => some (d + 1)
  | false, false => none

/-- Walks from the grid of `10^k` to ever finer ones, and stops at the first that meets the
interval. -/
def coarsest (r : RoundingInterval) (tieUp : Bool) : Nat → Int → Decimal
  | 0, k => ⟨0, k⟩
  | grids + 1, k =>
    match (r.inUnits k).nearest? tieUp with
    | some d => ⟨d, k⟩
    | none => coarsest r tieUp grids (k - 1)

end RoundingInterval

/-- The nearest of the shortest decimals that round to `m · 2^e`, for a positive number of the
format. The first grid tried is coarser than the number, and 24 grids reach past the 17 digits
that tell any two binary64 numbers apart. -/
def shortestDecimal (f : Format) (tieUp : Bool) (m : Nat) (e : Int) : Decimal :=
  let top := ((m.log2 : Int) + e + 1) * 30103 / 100000 + 2
  (RoundingInterval.around f m e).coarsest tieUp 24 top

end TensorGraph
