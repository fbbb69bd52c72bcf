import Scriptorium.Bytecode.Chunk

/-!
# Listings

A chunk as text, one instruction a line: its offset, its name and its operands. An operand that the
code ends in front of is listed as the last index there could be, or as zero.
-/
namespace Scriptorium.Bytecode.Chunk

/-- A number with at least four digits. -/
def offsetText (n : Nat) : String :=
  let digits := Nat.toDigits 10 n
  String.ofList (List.replicate (4 - digits.length) '0' ++ digits)

/-- The operand of two bytes at an offset, or another number when the code ends before it does. -/
def operandAt (chunk : Chunk) (offset otherwise : Nat) : Nat :=
  ((chunk.readWord? offset).map UInt16.toNat).getD otherwise

/-- The operands of an instruction at an offset. -/
def operandText (chunk : Chunk) (op : Opcode) (offset : Nat) : String :=
  match op with
  | .constant | .getGlobal | .setGlobal | .defineGlobal =>
    let index := chunk.operandAt (offset + 1) 65535
    match chunk.constants[index]? with
    | some value => s!" {index} ({value.inspect})"
    | none => s!" {index} (?)"
  | .getLocal | .setLocal => s!" {((chunk.code[offset + 1]?).getD 0).toNat}"
  | .jump | .jumpIfFalse | .jumpIfTrue =>
    " -> " ++ offsetText (offset + 3 + chunk.operandAt (offset + 1) 0)
  | .loop => " -> " ++ offsetText (offset + 3 - chunk.operandAt (offset + 1) 0)
  | .call =>
    let index := chunk.operandAt (offset + 1) 65535
    let name := ((chunk.constants[index]?).map Value.display).getD ""
    s!" {name}({((chunk.code[offset + 3]?).getD 0).toNat})"
  | _ => ""

/-- The line of an instruction at an offset. -/
def instructionText (chunk : Chunk) (byte : UInt8) (offset : Nat) : String :=
  match Opcode.ofByte? byte with
  | some op => offsetText offset ++ " " ++ op.label ++ operandText chunk op offset
  | none => offsetText offset ++ s!" UNKNOWN_OP({byte.toNat})"

/-- The lines of the instructions from an offset on. -/
def listFrom (chunk : Chunk) (offset : Nat) (done : List String) : List String :=
  if h : offset < chunk.code.size then
    let byte := chunk.code[offset]
    have : chunk.code.size - (offset + instructionLength byte) < chunk.code.size - offset := by
      have : 0 < instructionLength byte := by
        unfold instructionLength
        split <;> omega
      omega
    listFrom chunk (offset + instructionLength byte) (instructionText chunk byte offset :: done)
  else done.reverse
termination_by chunk.code.size - offset

/-- The listing of a chunk under a title. -/
def listing (chunk : Chunk) (title : String) : String :=
  s!"== {title} ==\n" ++ String.join ((listFrom chunk 0 []).map (· ++ "\n"))

end Scriptorium.Bytecode.Chunk
