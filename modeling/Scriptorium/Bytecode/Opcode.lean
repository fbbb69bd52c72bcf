import Scriptorium.Operator

/-!
# Operations of the machine

The operations of the stack machine and the bytes that stand for them. The operands of an operation
follow its byte.
-/
namespace Scriptorium.Bytecode

/-- The operations of the machine. -/
inductive Opcode
  /-- Pushes a constant: two bytes, its index. -/
  | constant
  | pushNull
  | pushTrue
  | pushFalse
  | pop
  /-- Pushes a local: one byte, its slot. -/
  | getLocal
  /-- Stores the top into a local and leaves it: one byte, its slot. -/
  | setLocal
  /-- Pushes a global: two bytes, the constant of its name. -/
  | getGlobal
  /-- Stores the top into an existing global and leaves it: two bytes, the constant of its name. -/
  | setGlobal
  /-- Pops into a new or existing global: two bytes, the constant of its name. -/
  | defineGlobal
  /-- Pops two values and pushes what an operator makes of them. -/
  | binary (op : BinaryOp)
  /-- Pops a value and pushes what an operator makes of it. -/
  | unary (op : UnaryOp)
  /-- Goes forward: two bytes, the distance. -/
  | jump
  /-- Goes forward if the top does not hold, and leaves it: two bytes, the distance. -/
  | jumpIfFalse
  /-- Goes forward if the top holds, and leaves it: two bytes, the distance. -/
  | jumpIfTrue
  /-- Goes back: two bytes, the distance. -/
  | loop
  /-- Calls by name: two bytes, the constant of the name, and one, the number of arguments. -/
  | call
  /-- Ends the chunk with the top as its value. -/
  | giveBack
deriving DecidableEq, Repr

namespace Opcode

/-- The operations in the order of their bytes. -/
def all : Array Opcode :=
  #[constant, pushNull, pushTrue, pushFalse, pop, getLocal, setLocal, getGlobal, setGlobal,
    defineGlobal, binary .add, binary .subtract, binary .multiply, binary .divide, binary .modulo,
    unary .negate, binary .concat, binary .equal, binary .notEqual, binary .less, binary .greater,
    binary .lessEqual, binary .greaterEqual, unary .not, jump, jumpIfFalse, jumpIfTrue, loop, call,
    giveBack]

/-- The byte of an operation. -/
def toByte : Opcode → UInt8
  | constant => 0
  | pushNull => 1
  | pushTrue => 2
  | pushFalse => 3
  | pop => 4
  | getLocal => 5
  | setLocal => 6
  | getGlobal => 7
  | setGlobal => 8
  | defineGlobal => 9
  | binary .add => 10
  | binary .subtract => 11
  | binary .multiply => 12
  | binary .divide => 13
  | binary .modulo => 14
  | unary .negate => 15
  | binary .concat => 16
  | binary .equal => 17
  | binary .notEqual => 18
  | binary .less => 19
  | binary .greater => 20
  | binary .lessEqual => 21
  | binary .greaterEqual => 22
  | unary .not => 23
  | jump => 24
  | jumpIfFalse => 25
  | jumpIfTrue => 26
  | loop => 27
  | call => 28
  | giveBack => 29

/-- The operation of a byte. -/
def ofByte? (byte : UInt8) : Option Opcode := all[byte.toNat]?

theorem ofByte?_toByte (op : Opcode) : ofByte? op.toByte = some op := by
  rcases op with _ | _ | _ | _ | _ | _ | _ | _ | _ | _ | (_ | _) | (_ | _) | _ | _ | _ | _ | _ | _ <;> rfl

/-- The number of bytes of an operation's operands. -/
def operandLength : Opcode → Nat
  | getLocal | setLocal => 1
  | constant | getGlobal | setGlobal | defineGlobal | jump | jumpIfFalse | jumpIfTrue | loop => 2
  | call => 3
  | _ => 0

/-- The name of an operation in listings. -/
def label : Opcode → String
  | constant => "OpConst"
  | pushNull => "OpNull"
  | pushTrue => "OpTrue"
  | pushFalse => "OpFalse"
  | pop => "OpPop"
  | getLocal => "OpGetLocal"
  | setLocal => "OpSetLocal"
  | getGlobal => "OpGetGlobal"
  | setGlobal => "OpSetGlobal"
  | defineGlobal => "OpDefineGlobal"
  | binary op => "Op" ++ op.label
  | unary .negate => "OpNeg"
  | unary .not => "OpNot"
  | jump => "OpJump"
  | jumpIfFalse => "OpJumpIfFalse"
  | jumpIfTrue => "OpJumpIfTrue"
  | loop => "OpLoop"
  | call => "OpCall"
  | giveBack => "OpReturn"

end Opcode

end Scriptorium.Bytecode
