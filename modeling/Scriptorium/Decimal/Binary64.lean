/-!
# Doubles as integers

A finite double is a sign and a product of a natural number and a power of two. `Binary64.parts?`
takes a double apart so, and `Binary64.assemble` builds one from such parts, exactly.
-/
namespace Scriptorium.Decimal

/-- A finite double: `±mantissa · 2 ^ exponent`. The mantissa has at most 53 bits; `isPowerOfTwo`
says that the gap to the double below is half the gap to the one above. -/
structure Binary64 where
  negative : Bool
  mantissa : Nat
  exponent : Int
  isPowerOfTwo : Bool
deriving DecidableEq, Repr

namespace Binary64

/-- Whether the sign bit is set. -/
def isNegative (x : Float) : Bool := x.toBits >>> 63 == 1

/-- The parts of a double, unless it is infinite or no number. -/
def parts? (x : Float) : Option Binary64 :=
  let bits : Nat := x.toBits.toNat
  let field : Nat := bits >>> 52 % 2048
  let fraction : Nat := bits % (1 <<< 52)
  if field = 2047 then none
  else if field = 0 then some ⟨isNegative x, fraction, -1074, false⟩
  else some ⟨isNegative x, 1 <<< 52 + fraction, (field : Int) - 1075, fraction = 0 && 1 < field⟩

/-- The double `±mantissa · 2 ^ exponent`, for a mantissa below `2 ^ 53` and a value that is a
double. -/
def assemble (negative : Bool) (mantissa : Nat) (exponent : Int) : Float :=
  let sign := if negative then 1 <<< 63 else 0
  if mantissa = 0 then Float.ofBits (UInt64.ofNat sign)
  else
    -- shift the mantissa to 53 bits, as far as the least exponent allows
    let shift := min (52 - (mantissa.log2 : Int)) (exponent + 1074)
    let shifted := if 0 ≤ shift then mantissa <<< shift.toNat else mantissa >>> (-shift).toNat
    let field := if shifted < 1 <<< 52 then 0 else (exponent - shift + 1075).toNat
    Float.ofBits (UInt64.ofNat (sign + field <<< 52 + shifted % (1 <<< 52)))

end Binary64

/-- The remainder of a division of doubles that rounds the quotient towards zero. It is exact and
has the sign of the dividend. -/
def remainder (x y : Float) : Float :=
  match Binary64.parts? x, Binary64.parts? y with
  | none, _ => 0.0 / 0.0
  | some _, none => if y.isNaN then y else x
  | some a, some b =>
    if b.mantissa = 0 then 0.0 / 0.0
    else
      let exponent := min a.exponent b.exponent
      let dividend := a.mantissa <<< (a.exponent - exponent).toNat
      let divisor := b.mantissa <<< (b.exponent - exponent).toNat
      Binary64.assemble a.negative (dividend % divisor) exponent

end Scriptorium.Decimal
