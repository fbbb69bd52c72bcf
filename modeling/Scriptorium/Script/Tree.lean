import Scriptorium.Operator
import Scriptorium.Script.Token

/-!
# Syntax trees

What a script unit says: expressions, statements and the declarations of one unit. Constructs that
may fail when they run hold the line that an error names.
-/
namespace Scriptorium.Script

/-- An expression. A bracket holds the text between the angle brackets and the value it stands for. -/
inductive Expr
  | number (value : Float)
  | text (value : String)
  | bool (value : Bool)
  | null
  | bracket (path : String) (value : Value)
  | name (name : String) (line : Nat)
  | assign (name : String) (value : Expr) (line : Nat)
  | binary (op : BinaryOp) (left right : Expr) (line : Nat)
  | logical (op : LogicalOp) (left right : Expr) (line : Nat)
  | unary (op : UnaryOp) (operand : Expr) (line : Nat)
  | call (name : String) (args : List Expr) (line : Nat)
deriving Inhabited, Repr

/-- A statement. -/
inductive Stmt
  | expr (value : Expr)
  /-- A local, which can be assigned to when it is mutable. -/
  | declare (name : String) (isMutable : Bool) (initial : Option Expr) (line : Nat)
  | branch (condition : Expr) (whenTrue : Stmt) (whenFalse : Option Stmt)
  | loop (condition : Expr) (body : Stmt)
  | giveBack (value : Option Expr) (line : Nat)
  | block (body : List Stmt)
  | empty
deriving Inhabited, Repr

/-- A global and the expression that it begins with. -/
structure GlobalDecl where
  name : String
  initial : Expr
  line : Nat
deriving Inhabited, Repr

/-- A function. -/
structure FunctionDecl where
  name : String
  params : List String
  body : List Stmt
  line : Nat
deriving Inhabited, Repr

/-- A parsed unit: its name, the name of its artifact, and what it declares and does. -/
structure ParsedUnit where
  name : String
  artifact : String
  globals : List GlobalDecl
  functions : List FunctionDecl
  statements : List Stmt
deriving Inhabited, Repr

/-- An operator between two expressions. -/
inductive Connective
  | binary (op : BinaryOp)
  | logical (op : LogicalOp)
deriving DecidableEq, Repr

namespace Connective

/-- The expression that an operator makes of two others. -/
def apply (line : Nat) : Connective → Expr → Expr → Expr
  | binary op, left, right => .binary op left right line
  | logical op, left, right => .logical op left right line

/-- The number of levels of operators. -/
def levels : Nat := 6

/-- The level of an operator, from one up to `levels`. A lower level binds tighter. -/
def level : Connective → Nat
  | binary .multiply | binary .divide | binary .modulo => 1
  | binary .add | binary .subtract | binary .concat => 2
  | binary .less | binary .greater | binary .lessEqual | binary .greaterEqual => 3
  | binary .equal | binary .notEqual => 4
  | logical .and => 5
  | logical .or => 6

/-- The symbol of an operator. -/
def symbol : Connective → Symbol
  | binary .add => .plus
  | binary .subtract => .minus
  | binary .multiply => .star
  | binary .divide => .slash
  | binary .modulo => .percent
  | binary .concat => .tilde
  | binary .equal => .equal
  | binary .notEqual => .notEqual
  | binary .less => .less
  | binary .greater => .greater
  | binary .lessEqual => .lessEqual
  | binary .greaterEqual => .greaterEqual
  | logical .and => .andAnd
  | logical .or => .orOr

/-- The operator that a symbol stands for between two expressions. -/
def ofSymbol? : Symbol → Option Connective
  | .plus => some (binary .add)
  | .minus => some (binary .subtract)
  | .star => some (binary .multiply)
  | .slash => some (binary .divide)
  | .percent => some (binary .modulo)
  | .tilde => some (binary .concat)
  | .equal => some (binary .equal)
  | .notEqual => some (binary .notEqual)
  | .less => some (binary .less)
  | .greater => some (binary .greater)
  | .lessEqual => some (binary .lessEqual)
  | .greaterEqual => some (binary .greaterEqual)
  | .andAnd => some (logical .and)
  | .orOr => some (logical .or)
  | _ => none

theorem ofSymbol?_symbol (c : Connective) : ofSymbol? c.symbol = some c := by
  rcases c with (_ | _) | (_ | _) <;> rfl

end Connective

end Scriptorium.Script
