import Scriptorium.Decimal.Numeral
import Scriptorium.Decimal.Shortest

/-!
# Writing numbers

Three ways to write a double, all with the shortest digits that read back: `plain` for scripts,
`inspected` for developers and `stored` for artifacts. What they differ in is one record.
-/
namespace Scriptorium.Decimal

/-- The decisions of a way to write numbers. -/
structure Layout where
  /-- The powers of ten of the first digit from which and up to which no exponent is written; absent
  when none is ever written. -/
  positional : Option (Int × Int)
  /-- Whether a whole number written without an exponent ends in `.0`. -/
  keepsPoint : Bool
  /-- Whether a positive exponent has a sign. -/
  signsExponent : Bool
  /-- Which of two equally near shortest decimals is written. -/
  tie : Tie

namespace Layout

/-- Every digit in its place, and no point after a whole number. -/
def plain : Layout := ⟨none, false, false, .away⟩

/-- A point in every number written without an exponent; an exponent from `1e16` on and below
`1e-4`. -/
def inspected : Layout := ⟨some (-4, 15), true, false, .away⟩

/-- A point in every number written without an exponent; an exponent from `1e+16` on and below
`1e-5`. -/
def stored : Layout := ⟨some (-5, 15), true, true, .toEven⟩

/-- The digits with the point `places` digits from the left. -/
def pointed (keepsPoint negative : Bool) (digits : List Char) (places : Int) : Numeral :=
  if places ≤ 0 then ⟨negative, ['0'], List.replicate (-places).toNat '0' ++ digits, none⟩
  else if digits.length ≤ places.toNat then
    ⟨negative, digits ++ List.replicate (places.toNat - digits.length) '0',
      if keepsPoint then ['0'] else [], none⟩
  else ⟨negative, digits.take places.toNat, digits.drop places.toNat, none⟩

/-- One digit, the others after a point, and the power of ten of the first digit. -/
def exponential (signsExponent negative : Bool) (digits : List Char) (power : Int) : Numeral :=
  let sign : Option Sign :=
    if power < 0 then some .minus else if signsExponent then some .plus else none
  ⟨negative, digits.take 1, digits.drop 1, some ⟨sign, Nat.toDigits 10 power.natAbs⟩⟩

/-- A shortest decimal in a layout. -/
def arrange (layout : Layout) (negative : Bool) (d : Shortest) : Numeral :=
  let digits := Nat.toDigits 10 d.digits
  let power : Int := digits.length + d.exponent - 1
  match layout.positional with
  | some (least, greatest) =>
    if least ≤ power ∧ power ≤ greatest then pointed layout.keepsPoint negative digits (power + 1)
    else exponential layout.signsExponent negative digits power
  | none => pointed layout.keepsPoint negative digits (power + 1)

/-- A finite double in a layout; the sign of zero is kept. -/
def numeral (layout : Layout) (b : Binary64) : Numeral :=
  layout.arrange b.negative (Shortest.ofBinary64 layout.tie b)

/-- A double in a layout. -/
def write (layout : Layout) (x : Float) : String :=
  match Binary64.parts? x with
  | some b => String.ofList (layout.numeral b).chars
  | none => if x.isNaN then "NaN" else if x < 0.0 then "-inf" else "inf"

end Layout

end Scriptorium.Decimal
