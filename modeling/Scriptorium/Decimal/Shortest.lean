import Scriptorium.Decimal.Binary64

/-!
# Shortest decimals

The decimal with the fewest digits that reads back as a given double, and of these the nearest to
it. The reals that round to `m · 2 ^ q` form an interval, ends included when `m` is even. For each
number of digits, the decimals of that many digits form a grid, and if a point of the grid lies in
the interval, then so does one of the two neighbours of the double.
-/
namespace Scriptorium.Decimal

/-- The decimal `digits · 10 ^ exponent`. -/
structure Shortest where
  digits : Nat
  exponent : Int
deriving DecidableEq, Repr

/-- Which of two equally near decimals is taken. -/
inductive Tie
  | away
  | toEven
deriving DecidableEq, Repr

namespace Shortest

/-- The number of decimal digits of a number, at least one. -/
def width (n : Nat) : Nat := (Nat.toDigits 10 n).length

/-- A positive rational as `numerator / denominator`. -/
structure Ratio where
  numerator : Nat
  denominator : Nat

/-- `n · 2 ^ e`. -/
def Ratio.scaled (n : Nat) (e : Int) : Ratio :=
  if 0 ≤ e then ⟨n <<< e.toNat, 1⟩ else ⟨n, 1 <<< (-e).toNat⟩

/-- The `p` with `10 ^ (p - 1) ≤ r < 10 ^ p`. -/
def Ratio.magnitude (r : Ratio) : Int :=
  if r.denominator ≤ r.numerator then width (r.numerator / r.denominator)
  else 1 - (width ((r.denominator - 1) / r.numerator) : Int)

/-- The interval of reals that round to a double, in quarters of its last bit's value. -/
structure Interval where
  low : Nat
  value : Nat
  high : Nat
  closed : Bool

/-- The interval of `b`, in units of `2 ^ (b.exponent - 2)`. -/
def Interval.of (b : Binary64) : Interval :=
  ⟨4 * b.mantissa - (if b.isPowerOfTwo then 1 else 2), 4 * b.mantissa, 4 * b.mantissa + 2,
    b.mantissa % 2 == 0⟩

/-- Whether `point`, in the same units as the ends, lies in the interval scaled by `unit`. -/
def Interval.contains (i : Interval) (unit point : Nat) : Bool :=
  if i.closed then i.low * unit ≤ point && point ≤ i.high * unit
  else i.low * unit < point && point < i.high * unit

/-- Drops the zeros at the end of the digits. `fuel` bounds their number. -/
def strip : Nat → Shortest → Shortest
  | 0, d => d
  | fuel + 1, d =>
    if d.digits ≠ 0 ∧ d.digits % 10 = 0 then strip fuel ⟨d.digits / 10, d.exponent + 1⟩ else d

/-- The nearest point to a double on the grid of multiples of `10 ^ exponent`, if it or the other
neighbour rounds to the double. -/
def onGrid? (tie : Tie) (b : Binary64) (exponent : Int) : Option Nat :=
  let i := Interval.of b
  let e := b.exponent - 2
  -- multiplied by both denominators, the ends and the grid are natural numbers
  let unit := Nat.pow 10 (-exponent).toNat <<< e.toNat
  let grid := Nat.pow 10 exponent.toNat <<< (-e).toNat
  let below := i.value * unit / grid
  let isBelow := i.contains unit (below * grid)
  let isAbove := i.contains unit ((below + 1) * grid)
  let gapBelow := i.value * unit - below * grid
  let gapAbove := (below + 1) * grid - i.value * unit
  if isBelow && isAbove then
    if gapBelow < gapAbove then some below
    else if gapAbove < gapBelow then some (below + 1)
    else
      match tie with
      | .away => some (below + 1)
      | .toEven => some (if below % 2 = 0 then below else below + 1)
  else if isBelow then some below
  else if isAbove then some (below + 1)
  else none

/-- The first hit on grids of more and more digits; `steps` grids are left, the finest last. -/
def search (tie : Tie) (b : Binary64) (finest : Int) : Nat → Shortest
  | 0 => ⟨b.mantissa, 0⟩
  | steps + 1 =>
    match onGrid? tie b (finest + steps) with
    | some digits => strip 20 ⟨digits, finest + steps⟩
    | none => search tie b finest steps

/-- The shortest decimal of a finite double, without its sign. Seventeen digits always suffice. -/
def ofBinary64 (tie : Tie) (b : Binary64) : Shortest :=
  if b.mantissa = 0 then ⟨0, 0⟩
  else
    let magnitude := (Ratio.scaled b.mantissa b.exponent).magnitude
    search tie b (magnitude - 17) 17

end Shortest

end Scriptorium.Decimal
