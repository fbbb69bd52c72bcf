import Scriptorium.Bytecode.Listing
import Scriptorium.Proofs.CallBudget
import Scriptorium.Proofs.LineTables

/-!
# Instruction streams

Code has no marks between its instructions: where one begins is known only by decoding all that stand before it. In code that was
emitted this is safe (`Chunk.Clean`). Decoding it from its first byte comes out exactly at its end, with a return as the last
instruction; every jump lands where an instruction begins; and a run never takes a step anywhere else (`emitted_code_clean`). So
the listing of a chunk, which decodes in the same way, shows exactly the instructions that a run can come to
(`Chunk.Clean.listed`).

Jumps are proved to land on segments, where an offset is the size of what stands before it: the code of every tree is `Settled`,
whatever stands around it.
-/
namespace Scriptorium

namespace Bytecode

open Machine (Call Named byteAt fetch wordAt)

namespace Chunk

/-- Where decoding from the first byte on comes to, one instruction after the other. -/
inductive Begins (chunk : Chunk) : Nat → Prop
  | first : Begins chunk 0
  | next {offset : Nat} {byte : UInt8} (here : Begins chunk offset) (found : chunk.code[offset]? = some byte) :
      Begins chunk (offset + instructionLength byte)

/-- An instruction begins at an offset. -/
def Starts (chunk : Chunk) (offset : Nat) : Prop := chunk.Begins offset ∧ offset < chunk.code.size

/-- An instruction that is followed by an offset leads from it to where instructions begin. -/
def Lands (chunk : Chunk) (next : Nat) : Instruction → Prop
  | .jump distance | .jumpIfFalse distance | .jumpIfTrue distance => chunk.Starts (next + distance.toNat)
  | .loop distance => distance.toNat ≤ next ∧ chunk.Starts (next - distance.toNat)
  | _ => True

/-- Code that is instructions and nothing else: decoding it ends where it ends, at a return, the machine reads each instruction as
long as decoding takes it to be, and jumps land where instructions begin. -/
structure Clean (chunk : Chunk) : Prop where
  ends : chunk.Begins chunk.code.size
  returns : ∃ offset, chunk.Starts offset ∧ fetch chunk offset = .ok .giveBack ∧ offset + 1 = chunk.code.size
  reads : ∀ offset, chunk.Starts offset → ∃ byte instruction, chunk.code[offset]? = some byte ∧
    fetch chunk offset = .ok instruction ∧ Opcode.ofByte? byte = some instruction.opcode ∧ instructionLength byte = instruction.size
  follows : ∀ offset instruction, chunk.Starts offset → fetch chunk offset = .ok instruction →
    (instruction = .giveBack ∧ offset + 1 = chunk.code.size) ∨ chunk.Starts (offset + instruction.size)
  lands : ∀ offset instruction, chunk.Starts offset → fetch chunk offset = .ok instruction →
    chunk.Lands (offset + instruction.size) instruction

end Chunk

namespace Chunk

/-- The operands of an instruction as they are listed, where `next` is the offset after it. -/
def operandsOf (chunk : Chunk) (next : Nat) : Instruction → String
  | .constant index | .getGlobal index | .setGlobal index | .defineGlobal index =>
    match chunk.constants[index.toNat]? with
    | some value => s!" {index.toNat} ({value.inspect})"
    | none => s!" {index.toNat} (?)"
  | .getLocal slot | .setLocal slot => s!" {slot.toNat}"
  | .jump distance | .jumpIfFalse distance | .jumpIfTrue distance => " -> " ++ offsetText (next + distance.toNat)
  | .loop distance => " -> " ++ offsetText (next - distance.toNat)
  | .call index count =>
    let name := ((chunk.constants[index.toNat]?).map Value.display).getD ""
    s!" {name}({count.toNat})"
  | .pushNull | .pushTrue | .pushFalse | .pop | .binary _ | .unary _ | .giveBack => ""

/-- The line of a listing for an instruction at an offset. -/
def lineOf (chunk : Chunk) (offset : Nat) (instruction : Instruction) : String :=
  offsetText offset ++ " " ++ instruction.opcode.label ++ chunk.operandsOf (offset + instruction.size) instruction

private theorem operandAt_of_wordAt {chunk : Chunk} {offset otherwise : Nat} {word : UInt16}
    (read : wordAt chunk offset = .ok word) : chunk.operandAt offset otherwise = word.toNat := by
  unfold wordAt at read
  split at read
  · rename_i found
    cases read
    simp [operandAt, found]
  · cases read

private theorem code_of_byteAt {chunk : Chunk} {offset : Nat} {byte : UInt8} (read : byteAt chunk offset = .ok byte) :
    chunk.code[offset]? = some byte := by
  unfold byteAt at read
  split at read
  · rename_i found
    cases read
    exact found
  · cases read

/-- A listing shows the instruction that the machine reads. -/
theorem instructionText_of_fetch {chunk : Chunk} {offset : Nat} {byte : UInt8} {instruction : Instruction}
    (found : chunk.code[offset]? = some byte) (read : fetch chunk offset = .ok instruction) :
    chunk.instructionText byte offset = chunk.lineOf offset instruction := by
  have first : byteAt chunk offset = .ok byte := by simp [byteAt, found]
  simp only [fetch, first, bind, Except.bind] at read
  unfold instructionText
  cases opcode : Opcode.ofByte? byte with
  | none =>
    rw [opcode] at read
    cases read
  | some op =>
    rw [opcode] at read
    simp only at read ⊢
    cases op with
    | constant | getGlobal | setGlobal | defineGlobal =>
      obtain ⟨word, wordRead, same⟩ := Compile.except_bind_eq_ok.mp read
      cases same
      simp only [lineOf, operandText, operandsOf, operandAt_of_wordAt wordRead]
      rfl
    | getLocal | setLocal =>
      obtain ⟨slot, slotRead, same⟩ := Compile.except_bind_eq_ok.mp read
      cases same
      simp only [lineOf, operandText, operandsOf, code_of_byteAt slotRead]
      rfl
    | jump | jumpIfFalse | jumpIfTrue | loop =>
      obtain ⟨word, wordRead, same⟩ := Compile.except_bind_eq_ok.mp read
      cases same
      simp only [lineOf, operandText, operandsOf, operandAt_of_wordAt wordRead]
      rfl
    | call =>
      obtain ⟨word, wordRead, rest⟩ := Compile.except_bind_eq_ok.mp read
      obtain ⟨name, -, rest⟩ := Compile.except_bind_eq_ok.mp rest
      obtain ⟨count, countRead, same⟩ := Compile.except_bind_eq_ok.mp rest
      cases same
      simp only [lineOf, operandText, operandsOf, operandAt_of_wordAt wordRead, code_of_byteAt countRead]
      rfl
    | pushNull | pushTrue | pushFalse | pop | binary | unary | giveBack =>
      cases read
      rfl

private theorem instructionLength_pos (byte : UInt8) : 0 < instructionLength byte := by
  unfold instructionLength
  split <;> omega

/-- No instruction begins inside another. -/
theorem Begins.apart {chunk : Chunk} {offset later : Nat} {byte : UInt8} (here : chunk.Begins offset)
    (found : chunk.code[offset]? = some byte) (there : chunk.Begins later) (less : offset < later) :
    offset + instructionLength byte ≤ later := by
  induction later using Nat.strong_induction_on generalizing offset byte with
  | _ later ih =>
    cases there with
    | first => exact absurd less (Nat.not_lt_zero _)
    | @next before last begins foundLast =>
      rcases Nat.lt_trichotomy offset before with earlier | rfl | inside
      · have reached := ih before (Nat.lt_add_of_pos_right (instructionLength_pos last)) here found begins earlier
        omega
      · obtain rfl := Option.some.inj (found.symm.trans foundLast)
        exact Nat.le_refl _
      · -- the offset would lie inside the instruction before
        have reached := ih offset less begins foundLast here inside
        omega

/-- What a listing lists from where an instruction begins. -/
theorem Clean.listFrom_eq {chunk : Chunk} (clean : chunk.Clean) {offset : Nat} (begins : chunk.Begins offset) (done : List String) :
    ∃ listed : List (Nat × Instruction), listed.Pairwise (·.1 < ·.1) ∧
      (∀ o instruction, (o, instruction) ∈ listed ↔ offset ≤ o ∧ chunk.Starts o ∧ fetch chunk o = .ok instruction) ∧
      chunk.listFrom offset done = done.reverse ++ listed.map fun pair => chunk.lineOf pair.1 pair.2 := by
  fun_induction listFrom chunk offset done with
  | case1 offset done inside byte _ ih =>
    have found : chunk.code[offset]? = some byte := Array.getElem?_eq_getElem inside
    obtain ⟨listed, sorted, each, same⟩ := ih (.next begins found)
    obtain ⟨_, first, -, read, -⟩ := clean.reads offset ⟨begins, inside⟩
    refine ⟨(offset, first) :: listed, List.pairwise_cons.mpr ⟨?_, sorted⟩, ?_, ?_⟩
    · rintro ⟨o, instruction⟩ present
      have after := ((each o instruction).mp present).1
      have long := instructionLength_pos byte
      show offset < o
      omega
    · intro o instruction
      rw [List.mem_cons, each, Prod.mk.injEq]
      constructor
      · rintro (⟨rfl, rfl⟩ | ⟨after, rest⟩)
        · exact ⟨Nat.le_refl _, ⟨begins, inside⟩, read⟩
        · exact ⟨Nat.le_trans (Nat.le_add_right _ _) after, rest⟩
      · rintro ⟨le, starts, there⟩
        rcases Nat.eq_or_lt_of_le le with rfl | less
        · exact .inl ⟨rfl, Except.ok.inj (there.symm.trans read)⟩
        · exact .inr ⟨begins.apart found starts.1 less, starts, there⟩
    · rw [same, instructionText_of_fetch found read, List.reverse_cons, List.append_assoc, List.map_cons]
      rfl
  | case2 offset done outside =>
    refine ⟨[], .nil, fun o instruction => ?_, by simp⟩
    simp only [List.not_mem_nil, false_iff]
    rintro ⟨le, starts, -⟩
    exact outside (Nat.lt_of_le_of_lt le starts.2)

/-- The listing of a chunk shows the instructions that the machine reads where instructions begin, all of them and no others, in
their order. -/
def Listed (chunk : Chunk) : Prop :=
  ∃ listed : List (Nat × Instruction), listed.Pairwise (·.1 < ·.1) ∧
    (∀ offset instruction, (offset, instruction) ∈ listed ↔ chunk.Starts offset ∧ fetch chunk offset = .ok instruction) ∧
    ∀ title, chunk.listing title =
      s!"== {title} ==\n" ++ String.join (listed.map fun pair => chunk.lineOf pair.1 pair.2 ++ "\n")

theorem Clean.listed {chunk : Chunk} (clean : chunk.Clean) : chunk.Listed := by
  obtain ⟨listed, sorted, each, same⟩ := clean.listFrom_eq .first []
  refine ⟨listed, sorted, by simpa using each, fun title => ?_⟩
  rw [listing, same, List.reverse_nil, List.nil_append, List.map_map]
  rfl

end Chunk

namespace Segment

/-- An instruction between two segments leads to instructions of them. -/
def Lands (before : Segment) (instruction : Instruction) (after : Segment) : Prop :=
  match instruction with
  | .jump distance | .jumpIfFalse distance | .jumpIfTrue distance =>
    ∃ skipped target rest, after = skipped ++ target :: rest ∧ distance.toNat = size skipped
  | .loop distance => ∃ rest repeated, before = rest ++ repeated ∧ distance.toNat = size repeated + instruction.size
  | _ => True

/-- The instructions of a segment can be read, and its jumps land on instructions, when it stands between two others. -/
def Settled (pool : Array Value) (before : Segment) (code : Segment) (after : Segment) : Prop :=
  match code with
  | [] => True
  | placed :: rest => Named pool placed.instruction ∧ Lands before placed.instruction (rest ++ after) ∧
      Settled pool (before ++ [placed]) rest after

private theorem settled_append {pool : Array Value} {before code more after : Segment} :
    Settled pool before (code ++ more) after ↔
      Settled pool before code (more ++ after) ∧ Settled pool (before ++ code) more after := by
  induction code generalizing before with
  | nil => simp [Settled]
  | cons placed code ih => simp [Settled, ih, and_assoc]

/-- What an instruction of a settled segment is like. -/
theorem Settled.at {pool : Array Value} {code before after : Segment} {placed : Placed} (settled : Settled pool [] code [])
    (parts : code = before ++ placed :: after) : Named pool placed.instruction ∧ Lands before placed.instruction after := by
  rw [parts, settled_append] at settled
  obtain ⟨-, named, lands, -⟩ := settled
  simp only [List.nil_append, List.append_nil] at lands
  exact ⟨named, lands⟩

private theorem settled_replicate_pop {pool : Array Value} (before after : Segment) (n line : Nat) :
    Settled pool before (List.replicate n ⟨line, .pop⟩) after := by
  induction n generalizing before with
  | zero => trivial
  | succ n ih => exact ⟨trivial, trivial, ih _⟩

/-- A jump over a segment lands on what stands after it. -/
theorem exists_target {skipped after : Segment} {distance : UInt16} (far : distance.toNat = size skipped) (more : after ≠ []) :
    ∃ passed target rest, skipped ++ after = passed ++ target :: rest ∧ distance.toNat = size passed := by
  obtain ⟨target, rest, rfl⟩ := List.exists_cons_of_ne_nil more
  exact ⟨skipped, target, rest, rfl, far⟩

/-! ## Chunks of settled segments -/

section
variable {code before after : Segment} {pool : Array Value} {debug : Bool} {offset : Nat} {placed : Placed}

/-- A call that runs the code of a segment. -/
def asCall (code : Segment) (pool : Array Value) (debug : Bool) : Call := ⟨code, pool, debug, "", 0, [], 0⟩

private theorem size_code : (code.toChunk pool debug).code.size = size code := by
  simp [toChunk, length_bytes]

private theorem has_placed (parts : code = before ++ placed :: after) : (asCall code pool debug).Has (size before) [placed] :=
  ⟨before, after, by simp [asCall, parts], rfl⟩

/-- The byte of an instruction tells how long it is. -/
theorem byte_placed (parts : code = before ++ placed :: after) :
    (code.toChunk pool debug).code[size before]? = some placed.instruction.opcode.toByte := by
  have inside : 0 < placed.instruction.size := by simp [Instruction.size]
  exact Call.byte_at (has_placed parts) 0 inside

private theorem instructionLength_toByte (opcode : Opcode) : Chunk.instructionLength opcode.toByte = 1 + opcode.operandLength := by
  rw [Chunk.instructionLength, Opcode.ofByte?_toByte]

/-- Decoding a segment comes to the offsets between its instructions. -/
theorem begins_iff :
    (code.toChunk pool debug).Begins offset ↔ ∃ before after, code = before ++ after ∧ size before = offset := by
  constructor
  · intro begins
    induction begins with
    | first => exact ⟨[], code, rfl, rfl⟩
    | @next offset byte _ found ih =>
      obtain ⟨before, after, parts, rfl⟩ := ih
      cases after with
      | nil =>
        have inside := (Array.getElem?_eq_some_iff.mp found).1
        rw [size_code, parts, List.append_nil] at inside
        exact absurd inside (Nat.lt_irrefl _)
      | cons placed after =>
        obtain rfl := Option.some.inj ((byte_placed parts).symm.trans found)
        refine ⟨before ++ [placed], after, by simp [parts], ?_⟩
        rw [size_append, instructionLength_toByte]
        rfl
  · rintro ⟨before, after, parts, rfl⟩
    induction before using List.reverseRecOn generalizing after with
    | nil => exact .first
    | append_singleton before placed ih =>
      have split : code = before ++ placed :: after := by simp [parts]
      have next := Chunk.Begins.next (ih _ split) (byte_placed split)
      rw [instructionLength_toByte] at next
      rwa [size_append]

/-- An instruction begins where one of the segment stands. -/
theorem starts_iff :
    (code.toChunk pool debug).Starts offset ↔
      ∃ before placed after, code = before ++ placed :: after ∧ size before = offset := by
  rw [Chunk.Starts, begins_iff, size_code]
  constructor
  · rintro ⟨⟨before, after, rfl, rfl⟩, inside⟩
    cases after with
    | nil => simp at inside
    | cons placed after => exact ⟨before, placed, after, rfl, rfl⟩
  · rintro ⟨before, placed, after, rfl, rfl⟩
    refine ⟨⟨before, placed :: after, rfl, rfl⟩, ?_⟩
    simp only [size_append, size, Instruction.size]
    omega

/-- Where the instructions of a settled segment lead, instructions begin. -/
theorem Lands.toChunk (lands : Lands before placed.instruction after) (parts : code = before ++ placed :: after) :
    (code.toChunk pool debug).Lands (size before + placed.instruction.size) placed.instruction := by
  have forward : ∀ distance : UInt16,
      (∃ skipped target rest, after = skipped ++ target :: rest ∧ distance.toNat = size skipped) →
        (code.toChunk pool debug).Starts (size before + placed.instruction.size + distance.toNat) := by
    rintro distance ⟨skipped, target, rest, rfl, far⟩
    refine starts_iff.mpr ⟨before ++ placed :: skipped, target, rest, by simp [parts], ?_⟩
    rw [size_append, size, far, Nat.add_assoc]
  have backward : ∀ distance : UInt16,
      (∃ rest repeated, before = rest ++ repeated ∧ distance.toNat = size repeated + placed.instruction.size) →
        distance.toNat ≤ size before + placed.instruction.size ∧
          (code.toChunk pool debug).Starts (size before + placed.instruction.size - distance.toNat) := by
    rintro distance ⟨rest, repeated, rfl, far⟩
    have split : size (rest ++ repeated) + placed.instruction.size = size rest + distance.toNat := by
      rw [size_append, far, Nat.add_assoc]
    rw [split, Nat.add_sub_cancel]
    refine ⟨Nat.le_add_left _ _, starts_iff.mpr ?_⟩
    cases repeated with
    | nil => exact ⟨rest, placed, after, by simpa using parts, rfl⟩
    | cons target repeated => exact ⟨rest, target, repeated ++ placed :: after, by simp [parts], rfl⟩
  obtain ⟨line, instruction⟩ := placed
  cases instruction with
  | jump distance | jumpIfFalse distance | jumpIfTrue distance => exact forward distance lands
  | loop distance => exact backward distance lands
  | constant | pushNull | pushTrue | pushFalse | pop | getLocal | setLocal | getGlobal | setGlobal | defineGlobal
    | binary | unary | call | giveBack => trivial

/-- A settled segment that ends with a return is clean as a chunk. -/
theorem Settled.clean {line : Nat} (settled : Settled pool [] (code ++ [⟨line, .giveBack⟩]) []) (debug : Bool) :
    (toChunk (code ++ [⟨line, .giveBack⟩]) pool debug).Clean := by
  have fetched : ∀ {before after : Segment} {placed : Placed}, code ++ [⟨line, .giveBack⟩] = before ++ placed :: after →
      fetch (toChunk (code ++ [⟨line, .giveBack⟩]) pool debug) (size before) = .ok placed.instruction :=
    fun parts => Machine.fetch_at (has_placed parts) (settled.at parts).1
  refine ⟨begins_iff.mpr ⟨_, [], (List.append_nil _).symm, size_code.symm⟩, ?_, ?_, ?_, ?_⟩
  · refine ⟨size code, starts_iff.mpr ⟨code, _, [], rfl, rfl⟩, fetched rfl, ?_⟩
    rw [size_code, size_append]
    rfl
  · intro offset starts
    obtain ⟨before, placed, after, parts, rfl⟩ := starts_iff.mp starts
    exact ⟨_, _, byte_placed parts, fetched parts, Opcode.ofByte?_toByte _, instructionLength_toByte _⟩
  · intro offset instruction starts read
    obtain ⟨before, placed, after, parts, rfl⟩ := starts_iff.mp starts
    obtain rfl := Except.ok.inj ((fetched parts).symm.trans read)
    cases after with
    | nil =>
      -- the last instruction is the return
      obtain ⟨rfl, same⟩ := List.append_inj' parts rfl
      obtain rfl := List.cons.inj same |>.1
      refine .inl ⟨rfl, ?_⟩
      rw [size_code, size_append]
      rfl
    | cons target after =>
      refine .inr (starts_iff.mpr ⟨before ++ [placed], target, after, by simp [parts], ?_⟩)
      rw [size_append]
      rfl
  · intro offset instruction starts read
    obtain ⟨before, placed, after, parts, rfl⟩ := starts_iff.mp starts
    obtain rfl := Except.ok.inj ((fetched parts).symm.trans read)
    exact (settled.at parts).2.toChunk parts

end

end Segment

end Bytecode

namespace Compile

open Bytecode (Chunk CompiledUnit Instruction Segment)
open Bytecode.Segment (Settled exists_target settled_append settled_replicate_pop)
open Script (Environment Expr FunctionDecl ParsedUnit Stmt)

section
variable {ctx : Context} {pool : Array Value} {scope inner : Scope} {code after : Segment}

theorem Pushes.settled {value : Value} (shape : Pushes pool value code) (before after : Segment) :
    Settled pool before code after := by
  cases shape <;> exact ⟨trivial, trivial, trivial⟩

theorem Reads.settled {name : String} {line : Nat} (shape : Reads pool ctx scope name line code) (before after : Segment) :
    Settled pool before code after := by
  cases shape <;> exact ⟨trivial, trivial, trivial⟩

theorem Writes.settled {name : String} {line : Nat} (shape : Writes pool ctx scope name line code) (before after : Segment) :
    Settled pool before code after := by
  cases shape <;> exact ⟨trivial, trivial, trivial⟩

mutual

/-- The code of an expression is settled wherever something stands after it. -/
theorem ExprCode.settled {e : Expr} {code after : Segment} (shape : ExprCode ctx pool scope e code) (before : Segment)
    (more : after ≠ []) : Settled pool before code after := by
  cases e with
  | number n | text s | bool b | null | bracket code value =>
    simp only [ExprCode] at shape
    exact shape.settled before after
  | name name line =>
    simp only [ExprCode] at shape
    exact shape.settled before after
  | assign name value line =>
    simp only [ExprCode] at shape
    obtain ⟨valueCode, store, rfl, valueShape, stores⟩ := shape
    exact settled_append.mpr ⟨ExprCode.settled valueShape before (List.append_ne_nil_of_right_ne_nil store more),
      stores.settled _ _⟩
  | binary op left right line =>
    simp only [ExprCode] at shape
    obtain ⟨leftCode, rightCode, rfl, leftShape, rightShape⟩ := shape
    have operator : [⟨line, .binary op⟩] ++ after ≠ [] := List.cons_ne_nil _ _
    refine settled_append.mpr ⟨settled_append.mpr ⟨?_, ?_⟩, trivial, trivial, trivial⟩
    · exact ExprCode.settled leftShape before (List.append_ne_nil_of_right_ne_nil rightCode operator)
    · exact ExprCode.settled rightShape _ operator
  | logical op left right line =>
    simp only [ExprCode] at shape
    obtain ⟨leftCode, rightCode, distance, popLine, rfl, far, leftShape, rightShape⟩ := shape
    have skips := exists_target far more
    refine settled_append.mpr ⟨ExprCode.settled leftShape before (List.cons_ne_nil _ _), ?_⟩
    cases op with
    | or | and => exact ⟨trivial, skips, trivial, trivial, ExprCode.settled rightShape _ more⟩
  | unary op operand line =>
    simp only [ExprCode] at shape
    obtain ⟨operandCode, rfl, operandShape⟩ := shape
    exact settled_append.mpr ⟨ExprCode.settled operandShape before (List.cons_ne_nil _ _), trivial, trivial, trivial⟩
  | call name args line =>
    simp only [ExprCode] at shape
    obtain ⟨argsCode, index, rfl, -, known, argsShape⟩ := shape
    exact settled_append.mpr ⟨ArgsCode.settled argsShape before (List.cons_ne_nil _ _), ⟨name, known⟩, trivial, trivial⟩
termination_by structural e

theorem ArgsCode.settled {args : List Expr} {code after : Segment} (shape : ArgsCode ctx pool scope args code) (before : Segment)
    (more : after ≠ []) : Settled pool before code after := by
  cases args with
  | nil =>
    simp only [ArgsCode] at shape
    subst shape
    trivial
  | cons arg args =>
    simp only [ArgsCode] at shape
    obtain ⟨first, rest, rfl, firstShape, restShape⟩ := shape
    exact settled_append.mpr ⟨ExprCode.settled firstShape before (List.append_ne_nil_of_right_ne_nil rest more),
      ArgsCode.settled restShape _ more⟩
termination_by structural args

end

theorem OptionalCode.settled {e : Option Expr} (shape : OptionalCode ctx pool scope e code) (before : Segment)
    (more : after ≠ []) : Settled pool before code after := by
  cases e with
  | some e => exact ExprCode.settled shape before more
  | none => exact Pushes.settled shape before after

mutual

/-- The code of a statement is settled wherever something stands after it. -/
theorem StmtCode.settled {scope inner : Scope} {s : Stmt} {code after : Segment} (shape : StmtCode ctx pool scope s code inner)
    (before : Segment) (more : after ≠ []) : Settled pool before code after := by
  cases s with
  | expr value =>
    simp only [StmtCode] at shape
    obtain ⟨valueCode, line, rfl, -, valueShape⟩ := shape
    exact settled_append.mpr ⟨valueShape.settled before (List.cons_ne_nil _ _), trivial, trivial, trivial⟩
  | declare name isMutable initial line =>
    simp only [StmtCode] at shape
    obtain ⟨-, -, -, initialShape⟩ := shape
    exact initialShape.settled before more
  | branch condition whenTrue whenFalse =>
    simp only [StmtCode] at shape
    obtain ⟨conditionCode, trueCode, falseCode, opened, overTrue, overFalse, testLine, popLine, closeLine, jumpLine, elseLine,
      rfl, trueFar, falseFar, -, conditionShape, trueShape, falseShape⟩ := shape
    refine settled_append.mpr ⟨conditionShape.settled before (List.cons_ne_nil _ _), trivial, ?_, ?_⟩
    · -- over the first branch and the jump at its end
      exact ⟨⟨popLine, .pop⟩ :: (trueCode ++ List.replicate opened.here.length ⟨closeLine, .pop⟩) ++ [⟨jumpLine, .jump overFalse⟩],
        ⟨elseLine, .pop⟩, falseCode ++ after, by simp, by rw [trueFar, Segment.size_append]; rfl⟩
    · refine settled_append.mpr ⟨⟨trivial, trivial, settled_append.mpr ⟨?_, settled_replicate_pop _ _ _ _⟩⟩, trivial,
        exists_target falseFar more, trivial, trivial, falseShape.settled _ more⟩
      exact StmtCode.settled trueShape _ (List.append_ne_nil_of_right_ne_nil _ (List.cons_ne_nil _ _))
  | loop condition body =>
    simp only [StmtCode] at shape
    obtain ⟨conditionCode, innerCode, opened, overBody, back, testLine, popLine, closeLine, backLine, endLine, rfl, bodyFar,
      backFar, -, conditionShape, bodyShape⟩ := shape
    refine settled_append.mpr ⟨conditionShape.settled before (List.cons_ne_nil _ _), trivial, ?_, ?_⟩
    · -- over the body and the jump back at its end
      exact ⟨⟨popLine, .pop⟩ :: (innerCode ++ List.replicate opened.here.length ⟨closeLine, .pop⟩) ++ [⟨backLine, .loop back⟩],
        ⟨endLine, .pop⟩, after, by simp, by rw [bodyFar, Segment.size_append]; rfl⟩
    · refine settled_append.mpr ⟨⟨trivial, trivial, settled_append.mpr ⟨?_, settled_replicate_pop _ _ _ _⟩⟩, trivial, ?_,
        trivial, trivial, trivial⟩
      · exact StmtCode.settled bodyShape _ (List.append_ne_nil_of_right_ne_nil _ (List.cons_ne_nil _ _))
      · -- back to the condition
        refine ⟨before, conditionCode ++ ⟨testLine, .jumpIfFalse overBody⟩ :: ⟨popLine, .pop⟩ ::
          (innerCode ++ List.replicate opened.here.length ⟨closeLine, .pop⟩), by simp, ?_⟩
        rw [backFar, Segment.size_append conditionCode, Nat.add_assoc (Segment.size conditionCode)]
        rfl
  | giveBack value line =>
    simp only [StmtCode] at shape
    obtain ⟨valueCode, _, rfl, -, valueShape⟩ := shape
    exact settled_append.mpr ⟨valueShape.settled before (List.cons_ne_nil _ _), trivial, trivial, trivial⟩
  | block body =>
    simp only [StmtCode] at shape
    obtain ⟨bodyCode, opened, line, rfl, -, bodyShape⟩ := shape
    exact settled_append.mpr ⟨StmtsCode.settled bodyShape before (List.append_ne_nil_of_right_ne_nil _ more),
      settled_replicate_pop _ _ _ _⟩
  | empty =>
    simp only [StmtCode] at shape
    obtain ⟨rfl, -⟩ := shape
    trivial
termination_by structural s

theorem StmtsCode.settled {scope inner : Scope} {body : List Stmt} {code after : Segment}
    (shape : StmtsCode ctx pool scope body code inner) (before : Segment) (more : after ≠ []) : Settled pool before code after := by
  cases body with
  | nil =>
    simp only [StmtsCode] at shape
    obtain ⟨rfl, -⟩ := shape
    trivial
  | cons s body =>
    simp only [StmtsCode] at shape
    obtain ⟨first, rest, between, rfl, firstShape, restShape⟩ := shape
    exact settled_append.mpr ⟨StmtCode.settled firstShape before (List.append_ne_nil_of_right_ne_nil rest more),
      StmtsCode.settled restShape _ more⟩
termination_by structural body

theorem BranchCode.settled {scope : Scope} {s : Option Stmt} {code after : Segment} (shape : BranchCode ctx pool scope s code)
    (before : Segment) (more : after ≠ []) : Settled pool before code after := by
  cases s with
  | some s =>
    simp only [BranchCode] at shape
    obtain ⟨branchCode, opened, line, rfl, branchShape⟩ := shape
    exact settled_append.mpr ⟨StmtCode.settled branchShape before (List.append_ne_nil_of_right_ne_nil _ more),
      settled_replicate_pop _ _ _ _⟩
  | none =>
    simp only [BranchCode] at shape
    subst shape
    trivial
termination_by structural s

end

end

/-- A chunk of settled code is clean. -/
theorem closed_clean {pool : Array Value} {code : Segment} {nullLine backLine : Nat} (debug : Bool)
    (settled : ∀ after, after ≠ [] → Settled pool [] code after) :
    ((Simulation.closed code nullLine backLine).toChunk pool debug).Clean := by
  have whole : Simulation.closed code nullLine backLine = (code ++ [⟨nullLine, .pushNull⟩]) ++ [⟨backLine, .giveBack⟩] := by
    simp [Simulation.closed]
  rw [whole]
  refine Settled.clean ?_ debug
  refine settled_append.mpr ⟨settled_append.mpr ⟨?_, trivial, trivial, trivial⟩, trivial, trivial, trivial⟩
  exact settled _ (List.cons_ne_nil _ _)

private theorem globalsCode_settled {ctx : Context} {pool : Array Value} {decls : List Script.GlobalDecl} {code : Segment}
    (shape : Simulation.GlobalsCode ctx pool decls code) (before after : Segment) : Settled pool before code after := by
  induction decls generalizing code before with
  | nil =>
    obtain rfl := shape
    trivial
  | cons decl decls ih =>
    obtain ⟨valueCode, line, index, rest, rfl, -, valueShape, restShape⟩ := shape
    exact settled_append.mpr ⟨valueShape.settled before (List.cons_ne_nil _ _), trivial, trivial, ih restShape _⟩

variable {env : Environment} {debug : Bool} {units : List ParsedUnit}

private theorem function_clean {ctx : Context} {decl : FunctionDecl} {made : Bytecode.Function}
    (compiled : function ctx debug decl = .ok made) : made.chunk.Clean := by
  obtain ⟨-, -, -, code, pool, nullLine, backLine, last, chunk, shape⟩ := Simulation.function_eq_ok compiled
  rw [chunk]
  exact closed_clean debug fun after more => shape.settled [] more

private theorem initialValues_clean {parsed : ParsedUnit} {compiled : CompiledUnit}
    (made : initialValues env debug parsed = .ok compiled) : ∀ chunk ∈ compiled.chunks, chunk.Clean := by
  obtain ⟨body, chunked, same⟩ := except_bind_eq_ok.mp made
  cases same
  obtain ⟨code, progress, nullLine, backLine, coded, rfl⟩ := Simulation.chunk_eq_ok chunked
  have shape := (Simulation.globalsCode_code coded).2 progress.constants (Grows.refl _)
  refine List.forall_mem_singleton.mpr ?_
  exact closed_clean debug fun after _ => globalsCode_settled shape [] after

private theorem compileUnit_clean {parsed : ParsedUnit} {compiled : CompiledUnit}
    (made : compileUnit env debug parsed = .ok compiled) : ∀ chunk ∈ compiled.chunks, chunk.Clean := by
  obtain ⟨functions, declared, rest⟩ := except_bind_eq_ok.mp made
  obtain ⟨body, chunked, same⟩ := except_bind_eq_ok.mp rest
  cases same
  obtain ⟨code, progress, nullLine, backLine, coded, rfl⟩ := Simulation.chunk_eq_ok chunked
  obtain ⟨last, shape⟩ := Simulation.body_eq_ok coded
  refine List.forall_mem_cons.mpr ⟨closed_clean debug fun after more => shape.settled [] more, ?_⟩
  intro chunk present
  obtain ⟨linked, held, rfl⟩ := List.mem_map.mp present
  obtain ⟨decl, -, made⟩ := mapM_mem declared held
  exact function_clean made

/-- Every chunk of a program is clean. -/
theorem program_clean {made : Machine.Program} (compiled : program env debug units = .ok made) :
    ∀ chunk ∈ made.chunks, chunk.Clean := by
  intro chunk present
  obtain ⟨parsed, -, unit, there, initial | stored⟩ := program_chunks compiled present
  · exact initialValues_clean initial chunk there
  · exact compileUnit_clean stored chunk there

end Compile

namespace Machine

open Bytecode (Chunk CompiledUnit Instruction)
open Std (HashMap)

/-! ## Effects -/

namespace Effect

/-- An effect leaves the call that runs where it is. -/
def Stays {α : Type} (effect : Effect α) : Prop := ∀ state, (after (effect state)).frame = state.frame

/-- An effect brings the call that runs from one place to a good one. -/
def Arrives {α : Type} (frame : Frame) (good : Frame → Prop) (effect : Effect α) : Prop :=
  ∀ state, state.frame = frame → good (after (effect state)).frame

theorem Stays.arrives {α : Type} {effect : Effect α} {frame : Frame} {good : Frame → Prop} (stays : Stays effect)
    (here : good frame) : Arrives frame good effect := by
  rintro state rfl
  rwa [stays state]

theorem Stays.bind_arrives {α β : Type} {first : Effect α} {rest : α → Effect β} {frame : Frame} {good : Frame → Prop}
    (stays : Stays first) (here : good frame) (arrives : ∀ a, Arrives frame good (rest a)) :
    Arrives frame good (first >>= rest) := by
  rintro state rfl
  have same := stays state
  show good (after (EStateM.bind first rest state)).frame
  unfold EStateM.bind
  cases done : first state with
  | ok a next =>
    rw [done] at same
    exact arrives a next same
  | error fault next =>
    rw [done] at same
    exact same ▸ here

theorem Stays.bind {α β : Type} {first : Effect α} {rest : α → Effect β} (firstStays : Stays first)
    (restStays : ∀ a, Stays (rest a)) : Stays (first >>= rest) :=
  fun state => @Stays.bind_arrives _ _ _ _ state.frame (· = state.frame) firstStays rfl
    (fun a => (restStays a).arrives rfl) state rfl

private theorem pure_stays {α : Type} (a : α) : Stays (pure a) := fun _ => rfl

private theorem push_stays (value : Value) : Stays (push value) := fun _ => rfl

private theorem defineGlobal_stays (name : String) (value : Value) : Stays (defineGlobal name value) := fun _ => rfl

private theorem pop_stays : Stays pop := by
  intro state
  unfold pop
  split <;> rfl

private theorem top_stays : Stays top := by
  intro state
  unfold top
  split <;> rfl

private theorem constant_stays (index : UInt16) : Stays (constant index) := by
  intro state
  unfold constant
  split <;> rfl

private theorem name_stays (index : UInt16) : Stays (name index) := by
  intro state
  unfold name
  split <;> rfl

private theorem getLocal_stays (index : UInt8) : Stays (getLocal index) := by
  intro state
  unfold getLocal
  dsimp only
  split <;> rfl

private theorem setLocal_stays (index : UInt8) (value : Value) : Stays (setLocal index value) := by
  intro state
  unfold setLocal
  dsimp only
  split <;> rfl

private theorem getGlobal_stays (name : String) : Stays (getGlobal name) := by
  intro state
  unfold getGlobal
  split <;> rfl

private theorem setGlobal_stays (name : String) (value : Value) : Stays (setGlobal name value) := by
  intro state
  unfold setGlobal
  split <;> rfl

private theorem operate_stays (applied : Except OperatorFault Value) : Stays (operate applied) := by
  cases applied with
  | ok value => exact push_stays value
  | error fault => exact fun _ => rfl

end Effect

/-- The call is at the start of an instruction of its code, which is code of the program. -/
def Frame.Ready (program : Program) (frame : Frame) : Prop := frame.chunk ∈ program.chunks ∧ frame.chunk.Starts frame.offset

/-- All active calls are at the starts of instructions. -/
def State.Ready (program : Program) (state : State) : Prop :=
  state.frame.Ready program ∧ ∀ caller ∈ state.callers, caller.Ready program

open Effect in
/-- Executing an instruction brings the call to the start of another, if one follows it and it leads to others only. -/
theorem execute_arrives {program : Program} {frame : Frame} {instruction : Instruction} (ready : frame.Ready program)
    (lands : frame.chunk.Lands frame.offset instruction) : Arrives frame (Frame.Ready program) (execute instruction) := by
  have skips : ∀ distance : UInt16, frame.chunk.Starts (frame.offset + distance.toNat) →
      Arrives frame (Frame.Ready program) (skip distance) := by
    rintro distance starts state rfl
    exact ⟨ready.1, starts⟩
  cases instruction with
  | jump distance => exact skips distance lands
  | jumpIfFalse distance | jumpIfTrue distance =>
    refine top_stays.bind_arrives ready fun value => ?_
    split
    · exact skips distance lands
    · exact (pure_stays _).arrives ready
  | loop distance =>
    rintro state rfl
    show Frame.Ready program (after (goBack distance state)).frame
    rw [goBack, if_pos lands.1]
    exact ⟨ready.1, lands.2⟩
  | constant index => exact ((constant_stays index).bind push_stays).arrives ready
  | pushNull | pushTrue | pushFalse => exact (push_stays _).arrives ready
  | pop => exact (pop_stays.bind fun _ => pure_stays _).arrives ready
  | getLocal index => exact ((getLocal_stays index).bind push_stays).arrives ready
  | setLocal index => exact (top_stays.bind (setLocal_stays index)).arrives ready
  | getGlobal index => exact ((name_stays index).bind fun name => (getGlobal_stays name).bind push_stays).arrives ready
  | setGlobal index => exact ((name_stays index).bind fun name => top_stays.bind (setGlobal_stays name)).arrives ready
  | defineGlobal index => exact ((name_stays index).bind fun name => pop_stays.bind (defineGlobal_stays name)).arrives ready
  | binary op => exact (pop_stays.bind fun _ => pop_stays.bind fun _ => operate_stays _).arrives ready
  | unary op => exact (pop_stays.bind fun _ => operate_stays _).arrives ready
  | call _ _ | giveBack => exact (pure_stays _).arrives ready

/-- All code of a program is clean. -/
def Program.Clean (program : Program) : Prop := ∀ chunk ∈ program.chunks, chunk.Clean

theorem Program.mem_chunks {program : Program} (linked : program.functions = linkFunctions program.units) {name : String}
    {found : LinkedFunction} (there : program.functions[name]? = some found) : found.function.chunk ∈ program.chunks := by
  rw [linked, Compile.linkFunctions_eq, Compile.getElem?_insertAll] at there
  have present := List.mem_of_find?_eq_some (by simpa using there)
  obtain ⟨compiled, unit, held⟩ := List.mem_flatMap.mp (List.mem_reverse.mp present)
  obtain ⟨function, declared, rfl⟩ := List.mem_map.mp held
  refine List.mem_flatMap.mpr ⟨compiled, List.mem_append_right _ unit, List.mem_cons_of_mem _ ?_⟩
  exact List.mem_map_of_mem declared

section
variable {σ : Type} {program : Program} {natives : Natives σ} {state next : State} {host nextHost : σ}

/-- Code of a program is ready to be run from its first byte on. -/
theorem Program.Clean.ready (clean : program.Clean) {chunk : Chunk} (present : chunk ∈ program.chunks) (unit : String) (base : Nat) :
    Frame.Ready program ⟨chunk, unit, base, 0⟩ := by
  obtain ⟨offset, starts, -⟩ := (clean chunk present).returns
  exact ⟨present, .first, Nat.lt_of_le_of_lt (Nat.zero_le _) starts.2⟩

private theorem executeReturn_ready (site : Site) (state : State) (callers : ∀ caller ∈ state.callers, caller.Ready program)
    (ran : executeReturn site state host = .running next nextHost) : next.Ready program := by
  have kept := (Effect.pop_calm state).2.1
  unfold executeReturn at ran
  cases popped : Effect.pop state with
  | error fault last =>
    rw [popped] at ran
    cases ran
  | ok value last =>
    rw [popped] at ran kept
    have same : last.callers = state.callers := kept
    rw [← same] at callers
    simp only at ran
    rcases waiting : last.callers with _ | ⟨caller, outer⟩
    · rw [waiting] at ran
      cases ran
    · rw [waiting] at ran callers
      cases ran
      exact List.forall_mem_cons.mp callers

private theorem executeCall_ready (clean : program.Clean) (linked : program.functions = linkFunctions program.units)
    (ready : state.Ready program) {site : Site} {name : String} {count : Nat}
    (ran : executeCall program natives site name count state host = .running next nextHost) : next.Ready program := by
  unfold executeCall at ran
  split at ran
  · cases ran
  simp only at ran
  split at ran
  · rename_i found there
    split at ran
    · cases ran
    · split at ran
      · cases ran
      · cases ran
        refine ⟨clean.ready (Program.mem_chunks linked there) _ _, ?_⟩
        exact List.forall_mem_cons.mpr ready
  · split at ran
    · cases ran
    · split at ran
      · cases ran
      · split at ran <;> cases ran
        exact ready

/-- A step goes from the start of an instruction to the start of another. -/
theorem step_ready (clean : program.Clean) (linked : program.functions = linkFunctions program.units) (ready : state.Ready program)
    (ran : step program natives state host = .running next nextHost) : next.Ready program := by
  obtain ⟨⟨present, starts⟩, callers⟩ := ready
  have code := clean _ present
  rw [step_eq] at ran
  cases fetched : fetch state.frame.chunk state.frame.offset with
  | error fault =>
    rw [fetched] at ran
    cases ran
  | ok instruction =>
    rw [fetched] at ran
    rcases code.follows _ _ starts fetched with ⟨rfl, -⟩ | after
    · exact executeReturn_ready _ (state.next .giveBack) callers ran
    have ready : (state.next instruction).Ready program := ⟨⟨present, after⟩, callers⟩
    rcases performed_cases program natives instruction with rfl | ⟨index, count, rfl⟩ | plain
    · exact executeReturn_ready _ (state.next .giveBack) callers ran
    · simp only [performed, called, Effect.name] at ran
      split at ran
      · cases ran
      · rename_i named
        split at named <;> cases named
        exact executeCall_ready clean linked ready ran
    · simp only [plain, executed] at ran
      have arrives := execute_arrives ready.1 (code.lands _ _ starts fetched) (state.next instruction) rfl
      have kept := (execute_calm instruction (state.next instruction)).2.1
      split at ran
      · rename_i done
        cases ran
        rw [done] at arrives kept
        have same : next.callers = state.callers := kept
        exact ⟨arrives, same ▸ callers⟩
      · cases ran

theorem Reaches.ready {n : Nat} {last : State} {lastHost : σ} (run : Reaches program natives n state host last lastHost)
    (clean : program.Clean) (linked : program.functions = linkFunctions program.units) (ready : state.Ready program) :
    last.Ready program := by
  induction run with
  | refl => exact ready
  | step first _ ih => exact ih (step_ready clean linked ready first)

/-- In every state that a run visits, all active calls are at the starts of instructions. -/
theorem Visits.ready {bodies : List CompiledUnit} {memory : Memory} {state : State} {stateHost : σ}
    (visits : Visits program natives bodies memory host state stateHost) (clean : program.Clean)
    (linked : program.functions = linkFunctions program.units) (inside : bodies ⊆ program.bodies) : state.Ready program := by
  induction visits with
  | @here compiled rest memory host n state stateHost room run =>
    refine run.ready clean linked ⟨clean.ready ?_ compiled.source 0, nofun⟩
    exact List.mem_flatMap.mpr ⟨compiled, inside List.mem_cons_self, List.mem_cons_self⟩
  | later _ _ ih => exact ih fun other member => inside (List.mem_cons_of_mem _ member)

end

/-- A program of clean code: each chunk is listed as what the machine reads in it, and whatever a machine runs the program on, all
active calls are at the starts of instructions whenever it takes a step. -/
structure Program.Orderly (program : Program) : Prop where
  clean : program.Clean
  listed : ∀ chunk ∈ program.chunks, chunk.Listed
  visits : ∀ {σ : Type} (natives : Natives σ) (memory : Memory) (host stateHost : σ) (state : State),
    Visits program natives program.bodies memory host state stateHost → state.Ready program

theorem Program.Clean.orderly {program : Program} (clean : program.Clean)
    (linked : program.functions = linkFunctions program.units) : program.Orderly where
  clean := clean
  listed chunk present := (clean chunk present).listed
  visits _ _ _ _ _ visits := visits.ready clean linked (List.Subset.refl _)

end Machine

/-! ## Loaded code -/

namespace Bytecode

open Machine (Fault constantAt byteAt fetch nameAt wordAt)

theorem Chunk.Begins.of_code {chunk other : Chunk} (code : chunk.code = other.code) {offset : Nat} (begins : chunk.Begins offset) :
    other.Begins offset := by
  induction begins with
  | first => exact .first
  | next _ found ih => exact .next ih (code ▸ found)

/-- Chunks of the same code that are read in the same way are clean together. -/
theorem Chunk.Clean.congr {chunk other : Chunk} (clean : chunk.Clean) (code : other.code = chunk.code)
    (reads : fetch other = fetch chunk) : other.Clean := by
  have begins : other.Begins = chunk.Begins := funext fun offset => propext ⟨.of_code code, .of_code code.symm⟩
  have starts : other.Starts = chunk.Starts := funext fun offset => by rw [Starts, Starts, begins, code]
  have lands : other.Lands = chunk.Lands := by
    funext next instruction
    cases instruction <;> simp only [Lands, starts]
  obtain ⟨ends, returns, read, follows, lead⟩ := clean
  refine ⟨?_, ?_, ?_, ?_, ?_⟩ <;> simpa only [begins, starts, lands, code, reads]

/-- The name that a value is. -/
def nameOf : Value → Except Fault String
  | .text name => .ok name
  | value => .error (.notName value.type)

private theorem nameAt_eq_nameOf (chunk : Chunk) (index : UInt16) :
    nameAt chunk index = ((chunk.constants.toList.map nameOf)[index.toNat]?).getD (.error (.invalidConstant index)) := by
  rw [List.getElem?_map, Array.getElem?_toList, nameAt, constantAt]
  cases chunk.constants[index.toNat]? with
  | none => rfl
  | some value => cases value <;> rfl

/-- Reading the numbers of a chunk again changes none of its instructions. -/
theorem Chunk.Clean.reread {chunk again : Chunk} (clean : chunk.Clean) (read : chunk.reread? = some again) : again.Clean := by
  obtain ⟨constants, mapped, rfl⟩ := Option.map_eq_some_iff.mp read
  have values : ∀ value other : Value, value.reread? = some other → nameOf other = nameOf value := by
    intro value other read
    cases value with
    | number x =>
      obtain ⟨y, -, rfl⟩ := Option.map_eq_some_iff.mp read
      rfl
    | text | bool | null =>
      cases read
      rfl
  have names : ∀ index, nameAt { chunk with constants := constants.toArray } index = nameAt chunk index := by
    intro index
    rw [nameAt_eq_nameOf, nameAt_eq_nameOf, List.toList_toArray, mapM_map_eq values mapped]
  refine clean.congr rfl (funext fun offset => ?_)
  unfold fetch
  simp only [names]
  rfl

end Bytecode

namespace Machine

open Bytecode (Chunk CompiledUnit)

private theorem mapM_some_mem {α β : Type} {f : α → Option β} {list : List α} {made : List β} (mapped : list.mapM f = some made)
    {b : β} (member : b ∈ made) : ∃ a ∈ list, f a = some b := by
  induction list generalizing made with
  | nil =>
    cases mapped
    cases member
  | cons a list ih =>
    rw [List.mapM_cons] at mapped
    obtain ⟨first, here, rest⟩ := Option.bind_eq_some_iff.mp mapped
    obtain ⟨others, remaining, same⟩ := Option.bind_eq_some_iff.mp rest
    cases same
    rcases List.mem_cons.mp member with rfl | later
    · exact ⟨a, List.mem_cons_self, here⟩
    · obtain ⟨other, found, same⟩ := ih remaining later
      exact ⟨other, List.mem_cons_of_mem a found, same⟩

/-- A chunk of a unit that was read again is a chunk of the unit, read again. -/
theorem chunks_reread {compiled again : CompiledUnit} (read : compiled.reread? = some again) {chunk : Chunk}
    (present : chunk ∈ again.chunks) : ∃ before ∈ compiled.chunks, before.reread? = some chunk := by
  obtain ⟨body, first, rest⟩ := Option.bind_eq_some_iff.mp read
  obtain ⟨functions, mapped, same⟩ := Option.bind_eq_some_iff.mp rest
  cases same
  rcases List.mem_cons.mp present with rfl | later
  · exact ⟨compiled.body, List.mem_cons_self, first⟩
  · obtain ⟨function, held, rfl⟩ := List.mem_map.mp later
    obtain ⟨declared, there, reads⟩ := mapM_some_mem mapped held
    obtain ⟨chunk, again, rfl⟩ := Option.map_eq_some_iff.mp reads
    exact ⟨declared.chunk, List.mem_cons_of_mem _ (List.mem_map_of_mem there), again⟩

/-- Reading the numbers of a program again changes none of its instructions. -/
theorem Program.Clean.reread {made loaded : Program} (clean : made.Clean) (read : made.reread? = some loaded) : loaded.Clean := by
  intro chunk present
  obtain ⟨initials, first, rest⟩ := Option.bind_eq_some_iff.mp read
  obtain ⟨units, second, same⟩ := Option.bind_eq_some_iff.mp rest
  cases same
  obtain ⟨compiled, inside, there⟩ := List.mem_flatMap.mp present
  have source : ∃ unit ∈ made.bodies, unit.reread? = some compiled := by
    rcases List.mem_append.mp inside with initial | unit
    · obtain ⟨unit, held, reads⟩ := mapM_some_mem first initial
      exact ⟨unit, List.mem_append_left _ held, reads⟩
    · obtain ⟨unit, held, reads⟩ := mapM_some_mem second unit
      exact ⟨unit, List.mem_append_right _ held, reads⟩
  obtain ⟨unit, held, reads⟩ := source
  obtain ⟨before, chunks, again⟩ := chunks_reread reads there
  exact (clean before (List.mem_flatMap.mpr ⟨unit, held, chunks⟩)).reread again

end Machine

namespace Compile

open Bytecode (CompiledUnit)
open Machine (Program)
open Script (Environment ParsedUnit)

/-- Emitted code is instructions and nothing else. Whatever compiles, alone or in a group, all its chunks are clean: decoding one
from its first byte comes out at its end with a return, and its jumps land where instructions begin; and each chunk is listed as
what the machine reads in it. A machine that runs a group that compiled, on whatever natives, memory and host, is at the start of
an instruction of one of these chunks whenever it takes a step, in the call that runs and in all that wait for it. It is so too
with the program that the artifacts of the group load as. Lines are numbers of 64 bits. -/
theorem emitted_code_clean (env : Environment) (debug : Bool) (units : List ParsedUnit) (artifacts : ArtifactSet) :
    (∀ (parsed : ParsedUnit) (compiled : CompiledUnit),
      initialValues env debug parsed = .ok compiled ∨ compileUnit env debug parsed = .ok compiled →
        ∀ chunk ∈ compiled.chunks, chunk.Clean ∧ chunk.Listed) ∧
    ((compileGroup env debug units artifacts).result = .ok () →
      ∃ made, program env debug units = .ok made ∧
        (compileGroup env debug units artifacts).artifacts = emitted artifacts units made ∧ made.Orderly ∧
        ((∀ parsed ∈ units, parsed.Within Json.maxInteger) →
          ∀ loaded, Program.load (compileGroup env debug units artifacts).artifacts = .ok loaded → loaded.Orderly)) := by
  constructor
  · intro parsed compiled made chunk present
    have clean : chunk.Clean := by
      rcases made with initial | unit
      · exact initialValues_clean initial chunk present
      · exact compileUnit_clean unit chunk present
    exact ⟨clean, clean.listed⟩
  · intro compiled
    obtain ⟨made, succeeded, -, linked, -, stored⟩ := program_of_result compiled
    have clean : made.Clean := program_clean succeeded
    refine ⟨made, succeeded, stored, clean.orderly linked, fun within loaded loads => ?_⟩
    have decodes := load_decodes artifacts within succeeded
    rw [← stored, loads] at decodes
    cases read : made.reread? with
    | none =>
      rw [read] at decodes
      obtain ⟨name, -, failed⟩ := decodes
      cases failed
    | some again =>
      rw [read] at decodes
      obtain rfl := Except.ok.inj decodes
      exact (clean.reread read).orderly (Program.load_linked loads)

/-- A script with a loop and a function: what it compiles to is orderly, stored and loaded or not. -/
theorem sampleUnit_code_clean :
    let env := (Environment.initial "group" Simulation.sampleNatives.signatures []).declareUnit Simulation.sampleUnit
    (compileGroup env true [Simulation.sampleUnit] ∅).result = .ok () ∧
    ∃ made loaded, program env true [Simulation.sampleUnit] = .ok made ∧
      Program.load (compileGroup env true [Simulation.sampleUnit] ∅).artifacts = .ok loaded ∧ made.Orderly ∧ loaded.Orderly := by
  intro env
  have lines : ∀ input ∈ [(⟨Simulation.sampleSource, "main", "main", false⟩ : Script.Input)],
      input.source.toList.count '\n' < Json.maxInteger := by
    rw [List.forall_mem_singleton]
    decide +kernel
  have within := Environment.parseAll_within lines Simulation.sampleSource_parses
  obtain ⟨made, succeeded, stored, orderly, loads⟩ := (emitted_code_clean env true _ ∅).2 Simulation.sampleUnit_compiles
  have decodes := load_decodes ∅ within succeeded
  have reads : made.reread?.isSome = true := by
    refine Program.reread?_isSome.mpr fun x present => ?_
    obtain ⟨unit, there, inside⟩ := (program_numbers within succeeded x).mp present
    obtain rfl := List.mem_singleton.mp there
    have none : Simulation.sampleUnit.numbers = [] := rfl
    rw [none] at inside
    cases inside
  obtain ⟨loaded, read⟩ := Option.isSome_iff_exists.mp reads
  rw [read, ← stored] at decodes
  exact ⟨Simulation.sampleUnit_compiles, made, loaded, succeeded, decodes, orderly, loads within loaded decodes⟩

end Compile

end Scriptorium
