import Scriptorium.Decimal.Numeral

/-!
# Numbers in JSON

The numbers that numerals stand for in artifacts. A numeral without fraction and exponent stands for
an integer where one is asked for. Doubles are read fast rather than with correct rounding: as many
digits as fit into 64 bits make an integer, which is rounded to a double and then scaled by powers of
ten that are doubles themselves, so that the answer can be off by the last bit.
-/
namespace Scriptorium.Json

open Decimal (Numeral Exponent digitValue)

/-- The greatest integer of 64 bits. -/
def maxInteger : Nat := 0xFFFFFFFFFFFFFFFF

/-- Appends digits to a number as long as it fits into 64 bits; gives the digits left as well. -/
def takeDigits (n : Nat) : List Char → Nat × List Char
  | [] => (n, [])
  | c :: digits =>
    let more := 10 * n + digitValue c
    if more ≤ maxInteger then takeDigits more digits else (n, c :: digits)

/-- The power of ten that an exponent stands for. -/
def power (e : Exponent) : Int :=
  match e.sign with
  | some .minus => -(Decimal.ofDigits e.digits : Int)
  | _ => Decimal.ofDigits e.digits

/-- The greatest exponent of a power of ten that is a double. -/
def maxPower : Int := 308

/-- The double nearest to a power of ten. -/
def powerOfTen (n : Nat) : Float := Decimal.nearest 1 n

/-- A double times a power of ten, unless the product is too great for a double. -/
def scale (x : Float) (exponent : Int) : Option Float :=
  if exponent < -maxPower then
    if x == 0.0 then some x else scale (x / powerOfTen maxPower.toNat) (exponent + maxPower)
  else if exponent < 0 then some (x / powerOfTen (-exponent).toNat)
  else if maxPower < exponent then if x == 0.0 then some x else none
  else
    let product := x * powerOfTen exponent.toNat
    if product.isInf then none else some product
termination_by (-exponent).toNat
decreasing_by simp only [maxPower] at *; omega

/-- The double that a numeral stands for, unless it is too great for one. Digits that do not fit into 64
bits are dropped; those before the point still count as powers of ten. -/
def toDouble? (n : Numeral) : Option Float := do
  let (whole, left) := takeDigits 0 n.whole
  let (digits, dropped) := takeDigits whole n.fraction
  let shift : Int := left.length - ((n.fraction.length : Int) - dropped.length)
  let x ← scale (Decimal.nearest digits 0) (shift + n.exponent.elim 0 power)
  return if n.negative then -x else x

/-- The natural number up to `limit` that a numeral stands for. -/
def toNat? (limit : Nat) (n : Numeral) : Option Nat :=
  let value := Decimal.ofDigits n.whole
  if n.negative || !n.fraction.isEmpty || n.exponent.isSome || limit < value then none else some value

end Scriptorium.Json
