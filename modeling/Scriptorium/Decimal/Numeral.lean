/-!
# Numerals

The written form of a decimal: a sign, digits, digits after a point, and a power of ten. Numbers are
written as numerals, and artifacts are read as such. A literal stands for the double nearest to it,
ties to the even mantissa: infinity beyond the doubles, and zero where it is nearer to zero than to
the least double.
-/
namespace Scriptorium.Decimal

/-- The value of a decimal digit. -/
def digitValue (c : Char) : Nat := c.toNat - '0'.toNat

/-- The number that digits stand for. -/
def ofDigits (digits : List Char) : Nat :=
  digits.foldl (fun n c => 10 * n + digitValue c) 0

/-- The double nearest to `digits · 10 ^ exponent`. -/
def nearest (digits : Nat) (exponent : Int) : Float :=
  -- the digits lie between `2 ^ bits` and `2 ^ (bits + 1)`, and `10 ^ 3 < 2 ^ 10 < 10 ^ 4`
  let bits : Int := digits.log2
  -- outside of these bounds the answer does not depend on the digits
  if digits = 0 ∨ (bits + 1) * 4 / 10 + 1 + exponent < -400 then 0.0
  else if 400 < bits * 3 / 10 + exponent then 1.0 / 0.0
  else Float.ofScientific digits (decide (exponent < 0)) exponent.natAbs

/-- The double nearest to `whole.fraction`. -/
def ofParts (whole fraction : List Char) : Float :=
  nearest (ofDigits (whole ++ fraction)) (-(fraction.length : Int))

/-- The sign of an exponent. -/
inductive Sign
  | plus
  | minus
deriving DecidableEq, Repr

/-- The power of ten of a numeral. -/
structure Exponent where
  sign : Option Sign
  digits : List Char
deriving DecidableEq, Repr

/-- A numeral. No point is written before an empty fraction. -/
structure Numeral where
  negative : Bool
  whole : List Char
  fraction : List Char
  exponent : Option Exponent
deriving DecidableEq, Repr

namespace Exponent

/-- The text of an exponent. -/
def chars (e : Exponent) : List Char :=
  match e.sign with
  | none => 'e' :: e.digits
  | some .plus => 'e' :: '+' :: e.digits
  | some .minus => 'e' :: '-' :: e.digits

/-- Reads the sign and the digits of an exponent. -/
def afterMark (s : List Char) : Option (Exponent × List Char) :=
  let (sign, rest) : Option Sign × List Char :=
    match s with
    | '+' :: rest => (some .plus, rest)
    | '-' :: rest => (some .minus, rest)
    | rest => (none, rest)
  let digits := rest.takeWhile Char.isDigit
  if digits.isEmpty then none else some (⟨sign, digits⟩, rest.dropWhile Char.isDigit)

end Exponent

namespace Numeral

/-- The numeral of a natural number. -/
def ofNat (n : Nat) : Numeral := ⟨false, Nat.toDigits 10 n, [], none⟩

/-- The text of a numeral. -/
def chars (n : Numeral) : List Char :=
  let sign := if n.negative then ['-'] else []
  let fraction := if n.fraction.isEmpty then [] else '.' :: n.fraction
  sign ++ n.whole ++ fraction ++ (n.exponent.elim [] Exponent.chars)

/-- Whether digits can stand before the point: there are some, and a zero in front stands alone. -/
def isWhole : List Char → Bool
  | [] => false
  | [_] => true
  | c :: _ => c != '0'

/-- Reads a fraction, if there is one. -/
def readFraction (s : List Char) : Option (List Char × List Char) :=
  match s with
  | '.' :: rest =>
    let digits := rest.takeWhile Char.isDigit
    if digits.isEmpty then none else some (digits, rest.dropWhile Char.isDigit)
  | _ => some ([], s)

/-- Reads an exponent, if there is one. -/
def readExponent (s : List Char) : Option (Option Exponent × List Char) :=
  match s with
  | 'e' :: rest | 'E' :: rest => (Exponent.afterMark rest).map fun (e, rest) => (some e, rest)
  | _ => some (none, s)

/-- Reads the numeral that a text begins with, and gives the rest of the text. A point and the mark of
an exponent have digits after them. -/
def read? (s : List Char) : Option (Numeral × List Char) := do
  let (negative, unsigned) := match s with
    | '-' :: rest => (true, rest)
    | _ => (false, s)
  let whole := unsigned.takeWhile Char.isDigit
  if !isWhole whole then none
  else
    let (fraction, rest) ← readFraction (unsigned.dropWhile Char.isDigit)
    let (exponent, rest) ← readExponent rest
    return (⟨negative, whole, fraction, exponent⟩, rest)

end Numeral

end Scriptorium.Decimal
