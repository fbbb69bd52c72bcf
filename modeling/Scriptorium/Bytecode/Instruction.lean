import Scriptorium.Bytecode.Chunk

/-!
# Instructions

An instruction is an operation with its operands. In code it is the byte of the operation, followed by
the operands, words with the greater byte first.
-/
namespace Scriptorium.Bytecode

/-- An instruction. Constants and names are given by their index, distances in bytes from the end of
the instruction. -/
inductive Instruction
  | constant (index : UInt16)
  | pushNull
  | pushTrue
  | pushFalse
  | pop
  | getLocal (slot : UInt8)
  | setLocal (slot : UInt8)
  | getGlobal (name : UInt16)
  | setGlobal (name : UInt16)
  | defineGlobal (name : UInt16)
  | binary (op : BinaryOp)
  | unary (op : UnaryOp)
  | jump (distance : UInt16)
  | jumpIfFalse (distance : UInt16)
  | jumpIfTrue (distance : UInt16)
  | loop (distance : UInt16)
  | call (name : UInt16) (count : UInt8)
  | giveBack
deriving DecidableEq, Repr

namespace Instruction

/-- The operation of an instruction. -/
def opcode : Instruction → Opcode
  | constant _ => .constant
  | pushNull => .pushNull
  | pushTrue => .pushTrue
  | pushFalse => .pushFalse
  | pop => .pop
  | getLocal _ => .getLocal
  | setLocal _ => .setLocal
  | getGlobal _ => .getGlobal
  | setGlobal _ => .setGlobal
  | defineGlobal _ => .defineGlobal
  | binary op => .binary op
  | unary op => .unary op
  | jump _ => .jump
  | jumpIfFalse _ => .jumpIfFalse
  | jumpIfTrue _ => .jumpIfTrue
  | loop _ => .loop
  | call _ _ => .call
  | giveBack => .giveBack

/-- The bytes of the operands. -/
def operands : Instruction → List UInt8
  | constant word | getGlobal word | setGlobal word | defineGlobal word | jump word | jumpIfFalse word
  | jumpIfTrue word | loop word => [highByte word, lowByte word]
  | getLocal slot | setLocal slot => [slot]
  | call name count => [highByte name, lowByte name, count]
  | _ => []

/-- An instruction in code. -/
def bytes (instruction : Instruction) : List UInt8 :=
  instruction.opcode.toByte :: instruction.operands

/-- The number of bytes of an instruction. -/
def size (instruction : Instruction) : Nat := 1 + instruction.opcode.operandLength

theorem length_bytes (instruction : Instruction) : instruction.bytes.length = instruction.size := by
  cases instruction <;> rfl

end Instruction

/-- An instruction made from a source line. -/
structure Placed where
  line : Nat
  instruction : Instruction
deriving DecidableEq, Repr

/-- Instructions that follow each other. -/
abbrev Segment := List Placed

namespace Segment

/-- The number of bytes of a segment. -/
def size : Segment → Nat
  | [] => 0
  | placed :: rest => placed.instruction.size + size rest

/-- A segment in code. -/
def bytes (segment : Segment) : List UInt8 := segment.flatMap fun placed => placed.instruction.bytes

/-- The source line of each byte of a segment. -/
def lines (segment : Segment) : List Nat :=
  segment.flatMap fun placed => List.replicate placed.instruction.size placed.line

/-- The chunk of a segment and the constants that it uses, with lines when debugging. -/
def toChunk (segment : Segment) (constants : Array Value) (debug : Bool) : Chunk where
  code := segment.bytes.toArray
  constants
  lines := if debug then segment.lines.toArray else #[]

theorem size_append (a b : Segment) : size (a ++ b) = size a + size b := by
  induction a with
  | nil => simp [size]
  | cons placed rest ih => simp [size, ih, Nat.add_assoc]

theorem length_bytes (segment : Segment) : segment.bytes.length = segment.size := by
  induction segment with
  | nil => rfl
  | cons placed rest ih =>
    rw [size, ← ih, ← Instruction.length_bytes, bytes, bytes, List.flatMap_cons, List.length_append]

theorem length_lines (segment : Segment) : segment.lines.length = segment.size := by
  induction segment with
  | nil => rfl
  | cons placed rest ih =>
    rw [size, ← ih, lines, lines, List.flatMap_cons, List.length_append, List.length_replicate]

end Segment

end Scriptorium.Bytecode
