import Scriptorium.Bytecode.Opcode
import Scriptorium.Value

/-!
# Chunks

A chunk is a stretch of code with the constants that it uses and, for debugging, the source line of
each of its bytes. Chunks are built byte by byte; only the operands of jumps are changed afterwards.
-/
namespace Scriptorium.Bytecode

/-- A stretch of code. `lines` holds one line for each byte, or nothing at all. -/
structure Chunk where
  code : Array UInt8
  constants : Array Value
  lines : Array Nat
deriving Inhabited, Repr

/-- The greater byte of a word. -/
def highByte (word : UInt16) : UInt8 := UInt8.ofNat (word.toNat / 256)

/-- The smaller byte of a word. -/
def lowByte (word : UInt16) : UInt8 := UInt8.ofNat (word.toNat % 256)

/-- The word of two bytes. -/
def wordOf (high low : UInt8) : UInt16 := UInt16.ofNat (high.toNat * 256 + low.toNat)

theorem wordOf_bytes (word : UInt16) : wordOf (highByte word) (lowByte word) = word := by
  have bound := word.toNat_lt
  apply UInt16.toNat.inj
  simp only [wordOf, highByte, lowByte, UInt8.toNat_ofNat', UInt16.toNat_ofNat']
  omega

/-- The index of a text among constants. -/
def findText? (constants : Array Value) (s : String) : Option Nat :=
  constants.findIdx? fun
    | .text t => t == s
    | _ => false

/-- Appends a constant to others and gives its index; a text that is there already is not added
again. -/
def addConstant (constants : Array Value) (value : Value) : Nat × Array Value :=
  let found := match value with
    | .text s => findText? constants s
    | _ => none
  match found with
  | some index => (index, constants)
  | none => (constants.size, constants.push value)

namespace Chunk

/-- The chunk without code. -/
def empty : Chunk := ⟨#[], #[], #[]⟩

/-- Appends a byte. -/
def write (chunk : Chunk) (byte : UInt8) (line : Nat) : Chunk :=
  { chunk with code := chunk.code.push byte, lines := chunk.lines.push line }

/-- Appends an operation. -/
def writeOp (chunk : Chunk) (op : Opcode) (line : Nat) : Chunk := chunk.write op.toByte line

/-- Appends an operand of two bytes. -/
def writeWord (chunk : Chunk) (word : UInt16) (line : Nat) : Chunk :=
  (chunk.write (highByte word) line).write (lowByte word) line

/-- The operand of two bytes at an offset. -/
def readWord? (chunk : Chunk) (offset : Nat) : Option UInt16 := do
  let high ← chunk.code[offset]?
  let low ← chunk.code[offset + 1]?
  return wordOf high low

/-- Overwrites the operand of two bytes at an offset, as far as it lies in the code. -/
def patchWord (chunk : Chunk) (offset : Nat) (word : UInt16) : Chunk :=
  { chunk with
    code := (chunk.code.setIfInBounds offset (highByte word)).setIfInBounds (offset + 1) (lowByte word) }

/-- Appends a constant and gives its index; a text that is there already is not added again. -/
def addConstant (chunk : Chunk) (value : Value) : Nat × Chunk :=
  let (index, constants) := Bytecode.addConstant chunk.constants value
  (index, { chunk with constants })

/-- The source line of the byte at an offset, where lines are kept. -/
def lineAt? (chunk : Chunk) (offset : Nat) : Option Nat := chunk.lines[offset]?

/-- The length of the instruction that begins with a byte. A byte that is no operation stands alone. -/
def instructionLength (byte : UInt8) : Nat :=
  match Opcode.ofByte? byte with
  | some op => 1 + op.operandLength
  | none => 1

end Chunk

end Scriptorium.Bytecode
