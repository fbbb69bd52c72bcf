import Mathlib
import Scriptorium.Machine.Run

/-!
# Runs of the machine

What the machine does at an instruction that stands at a known place of a chunk, and how single steps
make runs. A chunk is taken as the segment that it was made of, so that an offset is known by the
instructions before it: `Has` says that a segment begins at an offset.

A state is written `call.at offset stack globals`, with the stack as a list, its top first. There is one
lemma for each instruction, which says where a step leads; runs are counted (`Reaches`), so that a run
which does not end can be told from one that does.
-/
namespace Scriptorium.Machine

open Bytecode (Instruction Placed Segment Chunk Opcode wordOf highByte lowByte)
open Std (HashMap)

/-- What stays the same while a call runs its own code: what its chunk was made of, the unit that the
code comes from, the number of values below its locals, and the calls that wait for it. -/
structure Call where
  code : Segment
  constants : Array Value
  debug : Bool
  unit : String
  base : Nat
  callers : List Frame
  depth : Nat

namespace Call

/-- The chunk of a call. -/
def chunk (call : Call) : Chunk := call.code.toChunk call.constants call.debug

/-- The frame of a call at an offset. -/
def frame (call : Call) (offset : Nat) : Frame := ⟨call.chunk, call.unit, call.base, offset⟩

/-- The machine in a call at an offset, with a stack whose top comes first. -/
def «at» (call : Call) (offset : Nat) (stack : List Value) (globals : HashMap String Value) : State :=
  ⟨call.frame offset, call.callers, call.depth, stack.reverse.toArray, globals⟩

/-- A segment begins at an offset of the code of a call. -/
def Has (call : Call) (offset : Nat) (segment : Segment) : Prop :=
  ∃ before after, call.code = before ++ segment ++ after ∧ Segment.size before = offset

/-- The place that a fault of an instruction of a line is reported from. -/
def site (call : Call) (line : Nat) : Site := ⟨call.unit, if call.debug then some line else none⟩

theorem Has.left {call : Call} {offset : Nat} {first second : Segment} (has : call.Has offset (first ++ second)) :
    call.Has offset first := by
  obtain ⟨before, after, code, size⟩ := has
  exact ⟨before, second ++ after, by simp [code], size⟩

theorem Has.right {call : Call} {offset : Nat} {first second : Segment} (has : call.Has offset (first ++ second)) :
    call.Has (offset + Segment.size first) second := by
  obtain ⟨before, after, code, size⟩ := has
  exact ⟨before ++ first, after, by simp [code], by rw [Segment.size_append, size]⟩

theorem Has.head {call : Call} {offset : Nat} {placed : Placed} {rest : Segment}
    (has : call.Has offset (placed :: rest)) : call.Has offset [placed] := by
  have whole : call.Has offset ([placed] ++ rest) := has
  exact whole.left

theorem Has.tail {call : Call} {offset : Nat} {placed : Placed} {rest : Segment}
    (has : call.Has offset (placed :: rest)) : call.Has (offset + placed.instruction.size) rest := by
  have whole : call.Has offset ([placed] ++ rest) := has
  simpa [Segment.size] using whole.right

/-- The bytes of an instruction stand at its offset one after the other. -/
theorem byte_at {call : Call} {offset : Nat} {placed : Placed} (has : call.Has offset [placed]) (k : Nat)
    (inside : k < placed.instruction.size) :
    call.chunk.code[offset + k]? = placed.instruction.bytes[k]? := by
  obtain ⟨before, after, code, size⟩ := has
  rw [← Instruction.length_bytes] at inside
  have bytes : call.chunk.code = (Segment.bytes before ++ placed.instruction.bytes ++ Segment.bytes after).toArray := by
    simp [chunk, Segment.toChunk, code, Segment.bytes]
  rw [bytes, ← size, ← Segment.length_bytes, List.getElem?_toArray, List.append_assoc,
    List.getElem?_append_right (by omega), Nat.add_sub_cancel_left, List.getElem?_append_left inside]

/-- The line of an instruction is that of its first byte, where lines are kept. -/
theorem site_at {call : Call} {offset : Nat} {placed : Placed} (has : call.Has offset [placed]) :
    (call.frame offset).site = call.site placed.line := by
  obtain ⟨before, after, code, size⟩ := has
  have lines : Segment.lines call.code =
      Segment.lines before ++ (List.replicate placed.instruction.size placed.line ++ Segment.lines after) := by
    simp [code, Segment.lines]
  have first : (Segment.lines call.code)[offset]? = some placed.line := by
    have some_byte : 0 < placed.instruction.size := by simp only [Instruction.size]; omega
    rw [lines, ← size, ← Segment.length_lines, List.getElem?_append_right (Nat.le_refl _), Nat.sub_self,
      List.getElem?_append_left (by simpa using some_byte)]
    simp [some_byte]
  simp only [Frame.site, site, frame, Chunk.lineAt?, chunk, Segment.toChunk]
  cases call.debug with
  | true => simp [first]
  | false => simp

end Call

/-- The name in a call instruction is a name of the table. -/
def Named (constants : Array Value) : Instruction → Prop
  | .call name _ => ∃ s, constants[name.toNat]? = some (.text s)
  | _ => True

private theorem nameAt_eq {chunk : Chunk} {index : UInt16} {s : String}
    (known : chunk.constants[index.toNat]? = some (.text s)) : nameAt chunk index = .ok s := by
  simp [nameAt, constantAt, known]

/-- The machine reads the instruction that stands at an offset. -/
theorem fetch_at {call : Call} {offset : Nat} {placed : Placed} (has : call.Has offset [placed])
    (named : Named call.constants placed.instruction) : fetch call.chunk offset = .ok placed.instruction := by
  obtain ⟨line, instruction⟩ := placed
  have bytes := Call.byte_at has
  simp only at named bytes ⊢
  have opcode : byteAt call.chunk offset = .ok instruction.opcode.toByte := by
    have first := bytes 0 (by simp only [Instruction.size]; omega)
    simp only [Nat.add_zero] at first
    simp [byteAt, first, Instruction.bytes]
  have operand : ∀ (k : Nat) (byte : UInt8), instruction.operands[k]? = some byte →
      k < instruction.opcode.operandLength → call.chunk.code[offset + (k + 1)]? = some byte := by
    intro k byte known inside
    rw [bytes (k + 1) (by simp only [Instruction.size]; omega), Instruction.bytes, List.getElem?_cons_succ, known]
  have word : ∀ w, instruction.operands[0]? = some (highByte w) → instruction.operands[1]? = some (lowByte w) →
      1 < instruction.opcode.operandLength → wordAt call.chunk (offset + 1) = .ok w := by
    intro w high low long
    have second := operand 0 _ high (by omega)
    have third := operand 1 _ low long
    simp only [Nat.zero_add, Nat.reduceAdd] at second third
    simp [wordAt, Chunk.readWord?, second, third, Bytecode.wordOf_bytes, Nat.add_assoc]
  have single : ∀ (k : Nat) (byte : UInt8), instruction.operands[k]? = some byte →
      k < instruction.opcode.operandLength → byteAt call.chunk (offset + (k + 1)) = .ok byte := by
    intro k byte known inside
    simp [byteAt, operand k byte known inside]
  simp only [fetch, opcode, Opcode.ofByte?_toByte, bind, Except.bind]
  cases instruction with
  | constant w | getGlobal w | setGlobal w | defineGlobal w | jump w | jumpIfFalse w | jumpIfTrue w | loop w =>
    simp only [Instruction.opcode, word w rfl rfl (Nat.lt_succ_self 1)]
    rfl
  | getLocal slot | setLocal slot =>
    simp only [Instruction.opcode]
    rw [single 0 slot rfl Nat.zero_lt_one]
    rfl
  | call name count =>
    obtain ⟨s, known⟩ := named
    have looked : nameAt call.chunk name = .ok s := nameAt_eq known
    simp only [Instruction.opcode, word name rfl rfl (Nat.le_succ 2)]
    rw [looked]
    simp only [single 2 count rfl (Nat.lt_succ_self 2)]
    rfl
  | pushNull | pushTrue | pushFalse | pop | binary op | unary op | giveBack => rfl

section
variable {call : Call} {offset : Nat} {stack : List Value} {globals : HashMap String Value} {value : Value}

private theorem push_at : Effect.push value (call.at offset stack globals) = .ok () (call.at offset (value :: stack) globals) := by
  show EStateM.Result.ok () _ = _
  simp [Call.at]

private theorem pop_at :
    Effect.pop (call.at offset (value :: stack) globals) = .ok value (call.at offset stack globals) := by
  simp [Effect.pop, Call.at]

private theorem top_at :
    Effect.top (call.at offset (value :: stack) globals) = .ok value (call.at offset (value :: stack) globals) := by
  simp [Effect.top, Call.at]

private theorem constant_at {index : UInt16} (known : call.constants[index.toNat]? = some value) :
    Effect.constant index (call.at offset stack globals) = .ok value (call.at offset stack globals) := by
  simp [Effect.constant, constantAt, Call.at, Call.frame, Call.chunk, Segment.toChunk, known]

private theorem name_at {index : UInt16} {name : String} (known : call.constants[index.toNat]? = some (.text name)) :
    Effect.name index (call.at offset stack globals) = .ok name (call.at offset stack globals) := by
  have named : nameAt call.chunk index = .ok name := nameAt_eq known
  simp [Effect.name, Call.at, Call.frame, named]

private theorem getLocal_at {slot : UInt8} {upper lower : List Value} (deep : lower.length = call.base + slot.toNat) :
    Effect.getLocal slot (call.at offset (upper ++ value :: lower) globals) =
      .ok value (call.at offset (upper ++ value :: lower) globals) := by
  simp [Effect.getLocal, Call.at, Call.frame, ← deep]

private theorem setLocal_at {slot : UInt8} {old : Value} {upper lower : List Value}
    (deep : lower.length = call.base + slot.toNat) :
    Effect.setLocal slot value (call.at offset (upper ++ old :: lower) globals) =
      .ok () (call.at offset (upper ++ value :: lower) globals) := by
  simp [Effect.setLocal, Call.at, Call.frame, ← deep]

private theorem goBack_at {distance : UInt16} (inside : distance.toNat ≤ offset) :
    Effect.goBack distance (call.at offset stack globals) =
      .ok () (call.at (offset - distance.toNat) stack globals) := by
  simp [Effect.goBack, Call.at, Call.frame, inside]

end

/-! ## Steps at a place -/

section
variable {σ : Type} {program : Program} {natives : Natives σ} {call : Call} {offset line : Nat}
  {stack : List Value} {globals : HashMap String Value} {host : σ} {value : Value}

/-- What an instruction that is no call and no return does at a place is what its execution comes to. -/
theorem step_at {instruction : Instruction} (has : call.Has offset [⟨line, instruction⟩])
    (plain : ∀ name count, instruction ≠ .call name count) (stays : instruction ≠ .giveBack) :
    step program natives (call.at offset stack globals) host =
      match execute instruction (call.at (offset + instruction.size) stack globals) with
      | .ok () state => .running state host
      | .error fault state => .failed ⟨fault, call.site line⟩ state host := by
  have named : Named call.constants instruction := by
    cases instruction with
    | call name count => exact absurd rfl (plain name count)
    | _ => trivial
  have fetched : fetch (call.at offset stack globals).frame.chunk (call.at offset stack globals).frame.offset =
      .ok instruction := fetch_at has named
  have place : (call.at offset stack globals).frame.site = call.site line := Call.site_at has
  simp only [step, fetched, place]
  cases instruction with
  | call name count => exact absurd rfl (plain name count)
  | giveBack => exact absurd rfl stays
  | _ => rfl

theorem step_constant {index : UInt16} (has : call.Has offset [⟨line, .constant index⟩])
    (known : call.constants[index.toNat]? = some value) :
    step program natives (call.at offset stack globals) host =
      .running (call.at (offset + 3) (value :: stack) globals) host := by
  rw [step_at has (by simp) (by simp)]
  simp only [execute, bind, EStateM.bind, constant_at known, push_at]
  rfl

theorem step_pushNull (has : call.Has offset [⟨line, .pushNull⟩]) :
    step program natives (call.at offset stack globals) host =
      .running (call.at (offset + 1) (.null :: stack) globals) host := by
  rw [step_at has (by simp) (by simp)]
  simp only [execute, push_at]
  rfl

theorem step_pushTrue (has : call.Has offset [⟨line, .pushTrue⟩]) :
    step program natives (call.at offset stack globals) host =
      .running (call.at (offset + 1) (.bool true :: stack) globals) host := by
  rw [step_at has (by simp) (by simp)]
  simp only [execute, push_at]
  rfl

theorem step_pushFalse (has : call.Has offset [⟨line, .pushFalse⟩]) :
    step program natives (call.at offset stack globals) host =
      .running (call.at (offset + 1) (.bool false :: stack) globals) host := by
  rw [step_at has (by simp) (by simp)]
  simp only [execute, push_at]
  rfl

theorem step_pop (has : call.Has offset [⟨line, .pop⟩]) :
    step program natives (call.at offset (value :: stack) globals) host =
      .running (call.at (offset + 1) stack globals) host := by
  rw [step_at has (by simp) (by simp)]
  simp only [execute, bind, EStateM.bind, pop_at]
  rfl

theorem step_getLocal {slot : UInt8} {upper lower : List Value} (has : call.Has offset [⟨line, .getLocal slot⟩])
    (deep : lower.length = call.base + slot.toNat) :
    step program natives (call.at offset (upper ++ value :: lower) globals) host =
      .running (call.at (offset + 2) (value :: (upper ++ value :: lower)) globals) host := by
  rw [step_at has (by simp) (by simp)]
  simp only [execute, bind, EStateM.bind, getLocal_at deep, push_at]
  rfl

theorem step_setLocal {slot : UInt8} {old : Value} {upper lower : List Value}
    (has : call.Has offset [⟨line, .setLocal slot⟩]) (deep : lower.length = call.base + slot.toNat) :
    step program natives (call.at offset (value :: (upper ++ old :: lower)) globals) host =
      .running (call.at (offset + 2) (value :: (upper ++ value :: lower)) globals) host := by
  have stored : ∀ offset, Effect.setLocal slot value (call.at offset (value :: (upper ++ old :: lower)) globals) =
      .ok () (call.at offset (value :: (upper ++ value :: lower)) globals) := by
    intro offset
    rw [← List.cons_append, ← List.cons_append]
    exact setLocal_at deep
  rw [step_at has (by simp) (by simp)]
  simp only [execute, bind, EStateM.bind, top_at, stored]
  rfl

theorem step_getGlobal {index : UInt16} {name : String} (has : call.Has offset [⟨line, .getGlobal index⟩])
    (known : call.constants[index.toNat]? = some (.text name)) :
    step program natives (call.at offset stack globals) host =
      match globals[name]? with
      | some value => .running (call.at (offset + 3) (value :: stack) globals) host
      | none => .failed ⟨.undefinedGlobal name, call.site line⟩ (call.at (offset + 3) stack globals) host := by
  rw [step_at has (by simp) (by simp)]
  have kept : (call.at (offset + 3) stack globals).globals = globals := rfl
  have size : (Instruction.getGlobal index).size = 3 := rfl
  simp only [execute, bind, EStateM.bind, size, name_at known, Effect.getGlobal, kept]
  cases globals[name]? with
  | some value => simp only [push_at]
  | none => rfl

theorem step_setGlobal {index : UInt16} {name : String} (has : call.Has offset [⟨line, .setGlobal index⟩])
    (known : call.constants[index.toNat]? = some (.text name)) :
    step program natives (call.at offset (value :: stack) globals) host =
      if globals.contains name then
        .running (call.at (offset + 3) (value :: stack) (globals.insert name value)) host
      else
        .failed ⟨.undefinedGlobal name, call.site line⟩ (call.at (offset + 3) (value :: stack) globals) host := by
  rw [step_at has (by simp) (by simp)]
  have kept : (call.at (offset + 3) (value :: stack) globals).globals = globals := rfl
  have size : (Instruction.setGlobal index).size = 3 := rfl
  simp only [execute, bind, EStateM.bind, size, name_at known, top_at, Effect.setGlobal, kept]
  cases globals.contains name with
  | true => rfl
  | false => rfl

theorem step_defineGlobal {index : UInt16} {name : String}
    (has : call.Has offset [⟨line, .defineGlobal index⟩])
    (known : call.constants[index.toNat]? = some (.text name)) :
    step program natives (call.at offset (value :: stack) globals) host =
      .running (call.at (offset + 3) stack (globals.insert name value)) host := by
  rw [step_at has (by simp) (by simp)]
  simp only [execute, bind, EStateM.bind, name_at known, pop_at]
  rfl

theorem step_binary {op : BinaryOp} {left right : Value} (has : call.Has offset [⟨line, .binary op⟩]) :
    step program natives (call.at offset (right :: left :: stack) globals) host =
      match op.apply left right with
      | .ok value => .running (call.at (offset + 1) (value :: stack) globals) host
      | .error fault => .failed ⟨.operator fault, call.site line⟩ (call.at (offset + 1) stack globals) host := by
  rw [step_at has (by simp) (by simp)]
  have size : (Instruction.binary op).size = 1 := rfl
  simp only [execute, bind, EStateM.bind, pop_at, size]
  cases op.apply left right with
  | ok value => simp only [Effect.operate, push_at]
  | error fault => rfl

theorem step_unary {op : UnaryOp} {operand : Value} (has : call.Has offset [⟨line, .unary op⟩]) :
    step program natives (call.at offset (operand :: stack) globals) host =
      match op.apply operand with
      | .ok value => .running (call.at (offset + 1) (value :: stack) globals) host
      | .error fault => .failed ⟨.operator fault, call.site line⟩ (call.at (offset + 1) stack globals) host := by
  rw [step_at has (by simp) (by simp)]
  have size : (Instruction.unary op).size = 1 := rfl
  simp only [execute, bind, EStateM.bind, pop_at, size]
  cases op.apply operand with
  | ok value => simp only [Effect.operate, push_at]
  | error fault => rfl

theorem step_jump {distance : UInt16} (has : call.Has offset [⟨line, .jump distance⟩]) :
    step program natives (call.at offset stack globals) host =
      .running (call.at (offset + 3 + distance.toNat) stack globals) host := by
  rw [step_at has (by simp) (by simp)]
  rfl

theorem step_jumpIfFalse {distance : UInt16} (has : call.Has offset [⟨line, .jumpIfFalse distance⟩]) :
    step program natives (call.at offset (value :: stack) globals) host =
      .running (call.at (offset + 3 + if value.isTrue then 0 else distance.toNat) (value :: stack) globals) host := by
  rw [step_at has (by simp) (by simp)]
  simp only [execute, bind, EStateM.bind, top_at]
  cases value.isTrue with
  | true => rfl
  | false => rfl

theorem step_jumpIfTrue {distance : UInt16} (has : call.Has offset [⟨line, .jumpIfTrue distance⟩]) :
    step program natives (call.at offset (value :: stack) globals) host =
      .running (call.at (offset + 3 + if value.isTrue then distance.toNat else 0) (value :: stack) globals) host := by
  rw [step_at has (by simp) (by simp)]
  simp only [execute, bind, EStateM.bind, top_at]
  cases value.isTrue with
  | true => rfl
  | false => rfl

theorem step_loop {distance : UInt16} (has : call.Has offset [⟨line, .loop distance⟩])
    (inside : distance.toNat ≤ offset + 3) :
    step program natives (call.at offset stack globals) host =
      .running (call.at (offset + 3 - distance.toNat) stack globals) host := by
  rw [step_at has (by simp) (by simp)]
  have size : (Instruction.loop distance).size = 3 := rfl
  simp only [execute, size, goBack_at inside]

/-- The call that a call begins when its code goes on at an offset. -/
def Call.inner (call : Call) (offset : Nat) (unit : String) (base : Nat) (code : Segment)
    (constants : Array Value) : Call :=
  ⟨code, constants, call.debug, unit, base, call.frame offset :: call.callers, call.depth + 1⟩

private theorem step_giveBack (has : call.Has offset [⟨line, .giveBack⟩]) :
    step program natives (call.at offset stack globals) host =
      executeReturn (call.site line) (call.at (offset + 1) stack globals) host := by
  have fetched : fetch (call.at offset stack globals).frame.chunk (call.at offset stack globals).frame.offset =
      .ok .giveBack := fetch_at has trivial
  have place : (call.at offset stack globals).frame.site = call.site line := Call.site_at has
  simp only [step, fetched, place]
  rfl

/-- A return puts the value in the place of all that lies above the values below the locals. -/
theorem step_giveBack_inner {caller : Call} {back : Nat} {upper under : List Value}
    (has : call.Has offset [⟨line, .giveBack⟩]) (callers : call.callers = caller.frame back :: caller.callers)
    (depth : call.depth = caller.depth + 1) (base : under.length = call.base) :
    step program natives (call.at offset (value :: (upper ++ under)) globals) host =
      .running (caller.at back (value :: under) globals) host := by
  have waiting : (call.at (offset + 1) (upper ++ under) globals).callers = caller.frame back :: caller.callers :=
    callers
  have left : (call.at (offset + 1) (upper ++ under) globals).leave (caller.frame back) caller.callers value =
      caller.at back (value :: under) globals := by
    simp [State.leave, Call.at, Call.frame, depth, ← base]
  rw [step_giveBack has]
  simp only [executeReturn, pop_at, waiting, left]

/-- The return of the body of a unit is the end of the body. -/
theorem step_giveBack_outermost (has : call.Has offset [⟨line, .giveBack⟩]) (callers : call.callers = []) :
    step program natives (call.at offset (value :: stack) globals) host =
      .returned (call.at (offset + 1) stack globals) host := by
  have waiting : (call.at (offset + 1) stack globals).callers = [] := callers
  rw [step_giveBack has]
  simp only [executeReturn, pop_at, waiting]

theorem step_call {index : UInt16} {count : UInt8} {name : String}
    (has : call.Has offset [⟨line, .call index count⟩])
    (known : call.constants[index.toNat]? = some (.text name)) :
    step program natives (call.at offset stack globals) host =
      executeCall program natives (call.site line) name count.toNat (call.at (offset + 4) stack globals) host := by
  have fetched : fetch (call.at offset stack globals).frame.chunk (call.at offset stack globals).frame.offset =
      .ok (.call index count) := fetch_at has ⟨name, known⟩
  have place : (call.at offset stack globals).frame.site = call.site line := Call.site_at has
  let state := call.at offset stack globals
  have named : Effect.name index
      { state with frame := { state.frame with offset := state.frame.offset + (Instruction.call index count).size } } =
      .ok name (call.at (offset + 4) stack globals) := name_at known
  simp only [step, fetched, place, state] at named ⊢
  rw [named]

/-- A call of a function of the program begins with the arguments as its locals, unless too many calls are
active. -/
theorem executeCall_function {site : Site} {name : String} {args : List Value} {linked : LinkedFunction}
    {code : Segment} {constants : Array Value} (found : program.functions[name]? = some linked)
    (arity : linked.function.arity = args.length)
    (chunk : linked.function.chunk = code.toChunk constants call.debug) :
    executeCall program natives site name args.length (call.at offset (args.reverse ++ stack) globals) host =
      if maxDepth ≤ call.depth then
        .failed ⟨.stackOverflow, site⟩ (call.at offset (args.reverse ++ stack) globals) host
      else
        .running ((call.inner offset linked.unit stack.length code constants).at 0 (args.reverse ++ stack) globals)
          host := by
  have enough : ¬ (call.at offset (args.reverse ++ stack) globals).stack.size < args.length := by simp [Call.at]
  have depth : (call.at offset (args.reverse ++ stack) globals).depth = call.depth := rfl
  have entered : (call.at offset (args.reverse ++ stack) globals).enter linked
      ((call.at offset (args.reverse ++ stack) globals).stack.size - args.length) =
        (call.inner offset linked.unit stack.length code constants).at 0 (args.reverse ++ stack) globals := by
    simp [State.enter, Call.at, Call.frame, Call.inner, Call.chunk, chunk]
  simp only [executeCall, if_neg enough, found, arity, ne_eq, not_true_eq_false, if_false, depth, entered]

/-- A call of a native takes the arguments from the stack, and puts the value there if there is one. -/
theorem executeCall_native {site : Site} {name : String} {args : List Value} {native : Native σ}
    (free : program.functions[name]? = none) (found : natives.get? name = some native)
    (accepts : native.accepts args.length = true) :
    executeCall program natives site name args.length (call.at offset (args.reverse ++ stack) globals) host =
      match native.call args host with
      | (.returned value, host) => .running (call.at offset (value :: stack) globals) host
      | (.refused message, host) => .failed ⟨.refused name message, site⟩ (call.at offset stack globals) host
      | (.panicked panic, host) => .panicked panic (call.at offset stack globals) host := by
  have size : (call.at offset (args.reverse ++ stack) globals).stack.size = stack.length + args.length := by
    simp [Call.at]
  have enough : ¬ stack.length + args.length < args.length := by omega
  have given : ((call.at offset (args.reverse ++ stack) globals).stack.extract stack.length
      (stack.length + args.length)).toList = args := by
    simp [Call.at]
  have rest : { call.at offset (args.reverse ++ stack) globals with
      stack := (call.at offset (args.reverse ++ stack) globals).stack.shrink stack.length } =
        call.at offset stack globals := by
    simp [Call.at]
  simp only [executeCall, size, if_neg enough, free, found, accepts, Bool.not_true, Bool.false_eq_true, if_false,
    Nat.add_sub_cancel, given, rest]
  rcases native.call args host with ⟨value | message | panic, after⟩
  · simp [Call.at]
  · rfl
  · rfl

end

section
variable {σ : Type} (program : Program) (natives : Natives σ)

/-- A machine comes from one state to another in some number of steps, none of which is the last. -/
inductive Reaches : Nat → State → σ → State → σ → Prop
  | refl {state : State} {host : σ} : Reaches 0 state host state host
  | step {n : Nat} {state next last : State} {host nextHost lastHost : σ}
      (first : Machine.step program natives state host = .running next nextHost)
      (rest : Reaches n next nextHost last lastHost) : Reaches (n + 1) state host last lastHost

variable {program : Program} {natives : Natives σ} {n m depth : Nat} {state mid last : State} {host midHost lastHost : σ}

theorem Reaches.one (first : Machine.step program natives state host = .running mid midHost) :
    Reaches program natives 1 state host mid midHost :=
  .step first .refl

theorem Reaches.trans (first : Reaches program natives n state host mid midHost)
    (second : Reaches program natives m mid midHost last lastHost) :
    Reaches program natives (n + m) state host last lastHost := by
  induction first with
  | refl => simpa using second
  | step now _ ih =>
    rw [Nat.add_right_comm]
    exact .step now (ih second)

/-- As long as a run goes on, the machine has no answer. -/
theorem Reaches.runSteps_eq (run : Reaches program natives n state host mid midHost) (steps : Nat) :
    runSteps program natives depth (n + steps) state host = runSteps program natives depth steps mid midHost := by
  induction run with
  | refl => rw [Nat.zero_add]
  | step now _ ih =>
    rw [Nat.add_right_comm, runSteps]
    simp only [now]
    exact ih

theorem Reaches.runSteps_none (run : Reaches program natives n state host mid midHost) :
    ∀ steps ≤ n, runSteps program natives depth steps state host = none := by
  induction run with
  | refl =>
    intro steps few
    obtain rfl := Nat.le_zero.mp few
    rfl
  | step now _ ih =>
    intro steps few
    cases steps with
    | zero => rfl
    | succ steps =>
      rw [runSteps]
      simp only [now]
      exact ih steps (Nat.le_of_succ_le_succ few)

/-- A run that comes to its last step has one answer, and has it for every greater number of steps. -/
theorem Reaches.runSteps_ends (run : Reaches program natives n state host mid midHost) (depth : Nat) (ended : Ended σ)
    (ends : ∀ steps, runSteps program natives depth (steps + 1) mid midHost = some ended) :
    (∀ steps, n + 1 ≤ steps → runSteps program natives depth steps state host = some ended) ∧
      ∀ steps, runSteps program natives depth steps state host = none ∨
        runSteps program natives depth steps state host = some ended := by
  have enough : ∀ steps, n + 1 ≤ steps → runSteps program natives depth steps state host = some ended := by
    intro steps many
    obtain ⟨more, rfl⟩ := Nat.exists_eq_add_of_le many
    rw [Nat.add_assoc, run.runSteps_eq, Nat.add_comm 1 more]
    exact ends more
  refine ⟨enough, fun steps => ?_⟩
  by_cases few : steps ≤ n
  · exact .inl (run.runSteps_none steps few)
  · exact .inr (enough steps (Nat.lt_of_not_le few))

end

end Scriptorium.Machine
