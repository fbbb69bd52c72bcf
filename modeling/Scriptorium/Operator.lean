import Scriptorium.Decimal.Binary64
import Scriptorium.Value

/-!
# Operators

What the operators of the script language compute, and why they may refuse their operands. Texts are
joined, everything else is done with numbers; `and` and `or` choose between their operands and are
left to those who evaluate.
-/
namespace Scriptorium

/-- The operators that compute from two values. -/
inductive BinaryOp
  | add
  | subtract
  | multiply
  | divide
  | modulo
  | concat
  | equal
  | notEqual
  | less
  | greater
  | lessEqual
  | greaterEqual
deriving DecidableEq, Repr

/-- The name of an operator. -/
def BinaryOp.label : BinaryOp → String
  | add => "Add"
  | subtract => "Sub"
  | multiply => "Mul"
  | divide => "Div"
  | modulo => "Mod"
  | concat => "Concat"
  | equal => "Equal"
  | notEqual => "NotEqual"
  | less => "Less"
  | greater => "Greater"
  | lessEqual => "LessEqual"
  | greaterEqual => "GreaterEqual"

/-- The operators that evaluate their right side only when the left one does not decide. -/
inductive LogicalOp
  | and
  | or
deriving DecidableEq, Repr

/-- The name of an operator. -/
def LogicalOp.label : LogicalOp → String
  | and => "And"
  | or => "Or"

/-- The operators that compute from one value. -/
inductive UnaryOp
  | negate
  | not
deriving DecidableEq, Repr

/-- The name of an operator. -/
def UnaryOp.label : UnaryOp → String
  | negate => "Negate"
  | not => "Not"

/-- The spelling of an operator. -/
def BinaryOp.spelling : BinaryOp → String
  | add => "+"
  | subtract => "-"
  | multiply => "*"
  | divide => "/"
  | modulo => "%"
  | concat => "~"
  | equal => "=="
  | notEqual => "!="
  | less => "<"
  | greater => ">"
  | lessEqual => "<="
  | greaterEqual => ">="

/-- Why an operator refuses its operands. -/
inductive OperatorFault
  | mismatch (op : BinaryOp) (left right : ValueType)
  | divisionByZero
  | notNegatable (type : ValueType)
deriving DecidableEq, Repr

/-- The wording of a refusal. -/
def OperatorFault.message : OperatorFault → String
  | mismatch op left right => s!"Cannot apply {op.spelling} to {left.name} and {right.name}"
  | divisionByZero => "Division by zero"
  | notNegatable type => s!"Cannot negate a {type.name}"

namespace BinaryOp

/-- Computes from two numbers; other operands are refused. -/
def arithmetic (op : BinaryOp) (f : Float → Float → Except OperatorFault Float) :
    Value → Value → Except OperatorFault Value
  | .number a, .number b => (f a b).map .number
  | a, b => .error (.mismatch op a.type b.type)

/-- Refuses to divide by zero, whatever its sign. -/
def dividing (f : Float → Float → Float) (a b : Float) : Except OperatorFault Float :=
  if b == 0.0 then .error .divisionByZero else .ok (f a b)

/-- Compares two numbers or two texts; other operands are refused. Texts are ordered by their
characters, and a number that is none is in no order with any other. -/
def ordering (op : BinaryOp) (numbers : Float → Float → Bool) (texts : String → String → Bool) :
    Value → Value → Except OperatorFault Value
  | .number a, .number b => .ok (.bool (numbers a b))
  | .text a, .text b => .ok (.bool (texts a b))
  | a, b => .error (.mismatch op a.type b.type)

/-- Adds two numbers, and joins the texts of two values when one of them is a text. -/
def sum : Value → Value → Except OperatorFault Value
  | .number a, .number b => .ok (.number (a + b))
  | .text a, b => .ok (.text (a ++ b.display))
  | a, .text b => .ok (.text (a.display ++ b))
  | a, b => .error (.mismatch add a.type b.type)

/-- What an operator computes. -/
def apply : BinaryOp → Value → Value → Except OperatorFault Value
  | add, a, b => sum a b
  | subtract, a, b => arithmetic subtract (fun x y => .ok (x - y)) a b
  | multiply, a, b => arithmetic multiply (fun x y => .ok (x * y)) a b
  | divide, a, b => arithmetic divide (dividing (· / ·)) a b
  | modulo, a, b => arithmetic modulo (dividing Decimal.remainder) a b
  | concat, a, b => .ok (.text (a.display ++ b.display))
  | equal, a, b => .ok (.bool (a.equals b))
  | notEqual, a, b => .ok (.bool (!a.equals b))
  | less, a, b => ordering less (fun x y => x < y) (fun s t => s < t) a b
  | greater, a, b => ordering greater (fun x y => y < x) (fun s t => t < s) a b
  | lessEqual, a, b => ordering lessEqual (fun x y => x ≤ y) (fun s t => s ≤ t) a b
  | greaterEqual, a, b => ordering greaterEqual (fun x y => y ≤ x) (fun s t => t ≤ s) a b

end BinaryOp

namespace UnaryOp

/-- What an operator computes. Only numbers can be negated; every value has an opposite as a
condition. -/
def apply : UnaryOp → Value → Except OperatorFault Value
  | negate, .number n => .ok (.number (-n))
  | negate, value => .error (.notNegatable value.type)
  | not, value => .ok (.bool (!value.isTrue))

end UnaryOp

end Scriptorium
