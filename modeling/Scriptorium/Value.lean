import Scriptorium.Decimal.Layout
import Scriptorium.Text.Inspect

/-!
# Script values

What a script computes with: numbers, texts, truth values and null. Every value is true or false as
a condition and has a text, which `~`, `+` and `print` use.
-/
namespace Scriptorium

open Decimal (Layout)

/-- A value of a script. -/
inductive Value
  | number (n : Float)
  | text (s : String)
  | bool (b : Bool)
  | null
deriving Inhabited, Repr

/-- The types of values. -/
inductive ValueType
  | number
  | text
  | bool
  | null
deriving DecidableEq, Repr

/-- The name of a type, as error messages write it. -/
def ValueType.name : ValueType → String
  | .number => "number"
  | .text => "string"
  | .bool => "bool"
  | .null => "null"

namespace Value

/-- The type of a value. -/
def type : Value → ValueType
  | .number _ => .number
  | .text _ => .text
  | .bool _ => .bool
  | .null => .null

/-- Whether a value holds as a condition. False, null, zero and the empty text do not; a number that
is none does. -/
def isTrue : Value → Bool
  | .bool b => b
  | .null => false
  | .number n => n != 0.0
  | .text s => !s.isEmpty

/-- Equality of scripts: values of different types differ, and numbers compare as numbers, so that
both zeros are equal and a number that is none differs from itself. -/
def equals : Value → Value → Bool
  | .number a, .number b => a == b
  | .text a, .text b => a == b
  | .bool a, .bool b => a == b
  | .null, .null => true
  | _, _ => false

/-- The text of a number: its shortest decimal with every digit in its place, and zero without a
sign. -/
def numberText (n : Float) : String :=
  if n == 0.0 then "0" else Layout.plain.write n

/-- The text of a value. -/
def display : Value → String
  | .number n => numberText n
  | .text s => s
  | .bool b => toString b
  | .null => "null"

/-- A value with its type, for developers. -/
def inspect : Value → String
  | .number n => s!"Number({Layout.inspected.write n})"
  | .text s => s!"String({Text.inspect s})"
  | .bool b => s!"Bool({b})"
  | .null => "Null"

end Value

end Scriptorium
