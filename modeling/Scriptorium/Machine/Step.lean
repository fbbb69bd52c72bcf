import Scriptorium.Bytecode.Instruction
import Scriptorium.Machine.Fault
import Scriptorium.Machine.Program
import Scriptorium.Native

/-!
# Steps

One instruction of the stack machine. All active calls share one stack; the locals of a call lie on it
from the call's base upwards, the arguments first.
-/
namespace Scriptorium.Machine

open Bytecode (Chunk Instruction Opcode wordOf)
open Std (HashMap)

/-- The greatest number of active calls; the body of a unit counts as one. -/
def maxDepth : Nat := 256

/-- An active call: its code, the unit that the code comes from, where its locals begin on the stack,
and the offset of its next instruction. -/
structure Frame where
  chunk : Chunk
  unit : String
  base : Nat
  offset : Nat
deriving Inhabited

/-- A machine at work: the call that runs, the calls that wait for it, innermost first, how many calls
count as active, the stack, and the globals. -/
structure State where
  frame : Frame
  callers : List Frame
  depth : Nat
  stack : Array Value
  globals : HashMap String Value

/-- What a step comes to. -/
inductive Step (σ : Type)
  | running (state : State) (host : σ)
  | returned (state : State) (host : σ)
  | failed (error : RunError) (state : State) (host : σ)
  | panicked (panic : Panic) (state : State) (host : σ)

/-- The place of the next instruction of a call. -/
def Frame.site (frame : Frame) : Site := ⟨frame.unit, frame.chunk.lineAt? frame.offset⟩

/-- The byte at an offset. -/
def byteAt (chunk : Chunk) (offset : Nat) : Except Fault UInt8 :=
  match chunk.code[offset]? with
  | some byte => .ok byte
  | none => .error .endOfCode

/-- The word at an offset. -/
def wordAt (chunk : Chunk) (offset : Nat) : Except Fault UInt16 :=
  match chunk.readWord? offset with
  | some word => .ok word
  | none => .error .endOfCode

/-- The constant of an index. -/
def constantAt (chunk : Chunk) (index : UInt16) : Except Fault Value :=
  match chunk.constants[index.toNat]? with
  | some value => .ok value
  | none => .error (.invalidConstant index)

/-- The constant of an index, which has to be a name. -/
def nameAt (chunk : Chunk) (index : UInt16) : Except Fault String :=
  match constantAt chunk index with
  | .ok (.text name) => .ok name
  | .ok value => .error (.notName value.type)
  | .error fault => .error fault

/-- The instruction at an offset. The name of a call is looked at before the number of its arguments is
read. -/
def fetch (chunk : Chunk) (offset : Nat) : Except Fault Instruction := do
  let byte ← byteAt chunk offset
  match Opcode.ofByte? byte with
  | none => .error (.unknownOpcode byte)
  | some op =>
    let word := wordAt chunk (offset + 1)
    match op with
    | .constant => return .constant (← word)
    | .pushNull => return .pushNull
    | .pushTrue => return .pushTrue
    | .pushFalse => return .pushFalse
    | .pop => return .pop
    | .getLocal => return .getLocal (← byteAt chunk (offset + 1))
    | .setLocal => return .setLocal (← byteAt chunk (offset + 1))
    | .getGlobal => return .getGlobal (← word)
    | .setGlobal => return .setGlobal (← word)
    | .defineGlobal => return .defineGlobal (← word)
    | .binary op => return .binary op
    | .unary op => return .unary op
    | .jump => return .jump (← word)
    | .jumpIfFalse => return .jumpIfFalse (← word)
    | .jumpIfTrue => return .jumpIfTrue (← word)
    | .loop => return .loop (← word)
    | .call =>
      let name ← word
      let _ ← nameAt chunk name
      return .call name (← byteAt chunk (offset + 3))
    | .giveBack => return .giveBack

/-- A part of an instruction: it changes the machine, and gives a value or a fault. -/
abbrev Effect := EStateM Fault State

namespace Effect

/-- Puts a value on the stack. -/
def push (value : Value) : Effect Unit :=
  modify fun state => { state with stack := state.stack.push value }

/-- Takes the value on top of the stack. -/
def pop : Effect Value := fun state =>
  match state.stack.back? with
  | some value => .ok value { state with stack := state.stack.pop }
  | none => .error .stackUnderflow state

/-- The value on top of the stack, which stays there. -/
def top : Effect Value := fun state =>
  match state.stack.back? with
  | some value => .ok value state
  | none => .error .stackUnderflow state

/-- The constant of an index. -/
def constant (index : UInt16) : Effect Value := fun state =>
  match constantAt state.frame.chunk index with
  | .ok value => .ok value state
  | .error fault => .error fault state

/-- The name of an index. -/
def name (index : UInt16) : Effect String := fun state =>
  match nameAt state.frame.chunk index with
  | .ok name => .ok name state
  | .error fault => .error fault state

/-- The value of a local of the call that runs. -/
def getLocal (index : UInt8) : Effect Value := fun state =>
  let slot := state.frame.base + index.toNat
  match state.stack[slot]? with
  | some value => .ok value state
  | none => .error (.invalidSlot slot) state

/-- Stores a value into a local of the call that runs. -/
def setLocal (index : UInt8) (value : Value) : Effect Unit := fun state =>
  let slot := state.frame.base + index.toNat
  if slot < state.stack.size then .ok () { state with stack := state.stack.setIfInBounds slot value }
  else .error (.invalidSlot slot) state

/-- The value of a global. -/
def getGlobal (name : String) : Effect Value := fun state =>
  match state.globals[name]? with
  | some value => .ok value state
  | none => .error (.undefinedGlobal name) state

/-- Stores a value into a global, new or not. -/
def defineGlobal (name : String) (value : Value) : Effect Unit :=
  modify fun state => { state with globals := state.globals.insert name value }

/-- Stores a value into a global, which has to be there. -/
def setGlobal (name : String) (value : Value) : Effect Unit := fun state =>
  if state.globals.contains name then defineGlobal name value state
  else .error (.undefinedGlobal name) state

/-- The value that an operator computes. -/
def operate : Except OperatorFault Value → Effect Unit
  | .ok value => push value
  | .error fault => throw (.operator fault)

/-- Goes forward by a distance. -/
def skip (distance : UInt16) : Effect Unit := modify fun state =>
  { state with frame := { state.frame with offset := state.frame.offset + distance.toNat } }

/-- Goes back by a distance. -/
def goBack (distance : UInt16) : Effect Unit := fun state =>
  if distance.toNat ≤ state.frame.offset then
    .ok () { state with frame := { state.frame with offset := state.frame.offset - distance.toNat } }
  else .error .invalidLoop state

end Effect

open Effect in
/-- Executes an instruction that is no call and no return. The state has the offset of the next
instruction already. -/
def execute : Instruction → Effect Unit
  | .constant index => do push (← constant index)
  | .pushNull => push .null
  | .pushTrue => push (.bool true)
  | .pushFalse => push (.bool false)
  | .pop => do let _ ← pop
  | .getLocal index => do push (← getLocal index)
  | .setLocal index => do setLocal index (← top)
  | .getGlobal index => do push (← getGlobal (← name index))
  | .setGlobal index => do
    let name ← name index
    setGlobal name (← top)
  | .defineGlobal index => do
    let name ← name index
    defineGlobal name (← pop)
  | .binary op => do
    let right ← pop
    let left ← pop
    operate (op.apply left right)
  | .unary op => do operate (op.apply (← pop))
  | .jump distance => skip distance
  | .jumpIfFalse distance => do if !(← top).isTrue then skip distance
  | .jumpIfTrue distance => do if (← top).isTrue then skip distance
  | .loop distance => goBack distance
  | .call _ _ | .giveBack => pure ()

/-- Calls a function, the arguments of which lie on the stack from `base` upwards. -/
def State.enter (state : State) (linked : LinkedFunction) (base : Nat) : State :=
  { state with
    frame := ⟨linked.function.chunk, linked.unit, base, 0⟩
    callers := state.frame :: state.callers
    depth := state.depth + 1 }

/-- Goes back to the innermost caller: the value of the call takes the place of all that the call has on
the stack. -/
def State.leave (state : State) (caller : Frame) (callers : List Frame) (value : Value) : State :=
  { state with
    frame := caller
    callers
    depth := state.depth - 1
    stack := (state.stack.shrink state.frame.base).push value }

variable {σ : Type}

/-- Executes a return: the value on top of the stack is the value of the call. -/
def executeReturn (site : Site) (state : State) (host : σ) : Step σ :=
  match Effect.pop state with
  | .error fault state => .failed ⟨fault, site⟩ state host
  | .ok value state =>
    match state.callers with
    | [] => .returned state host
    | caller :: callers => .running (state.leave caller callers value) host

variable (program : Program) (natives : Natives σ)

/-- Executes a call of a name: a function of the program, or else a native. -/
def executeCall (site : Site) (name : String) (count : Nat) (state : State) (host : σ) : Step σ :=
  if state.stack.size < count then .failed ⟨.stackUnderflow, site⟩ state host
  else
    let base := state.stack.size - count
    match program.functions[name]? with
    | some linked =>
      if linked.function.arity ≠ count then
        .failed ⟨.wrongCount name linked.function.arity count, site⟩ state host
      else if maxDepth ≤ state.depth then .failed ⟨.stackOverflow, site⟩ state host
      else .running (state.enter linked base) host
    | none =>
      match natives.get? name with
      | none => .failed ⟨.undefinedFunction name, site⟩ state host
      | some native =>
        if !native.accepts count then .failed ⟨.notAccepted name count, site⟩ state host
        else
          let args := (state.stack.extract base).toList
          let state := { state with stack := state.stack.shrink base }
          match native.call args host with
          | (.returned value, host) => .running { state with stack := state.stack.push value } host
          | (.refused message, host) => .failed ⟨.refused name message, site⟩ state host
          | (.panicked panic, host) => .panicked panic state host

/-- One step: the next instruction of the call that runs. A fault is reported at the instruction that it
arises in. -/
def step (state : State) (host : σ) : Step σ :=
  let site := state.frame.site
  match fetch state.frame.chunk state.frame.offset with
  | .error fault => .failed ⟨fault, site⟩ state host
  | .ok instruction =>
    let next := { state with frame := { state.frame with offset := state.frame.offset + instruction.size } }
    match instruction with
    | .giveBack => executeReturn site next host
    | .call index count =>
      match Effect.name index next with
      | .error fault state => .failed ⟨fault, site⟩ state host
      | .ok name next => executeCall program natives site name count.toNat next host
    | instruction =>
      match execute instruction next with
      | .ok () state => .running state host
      | .error fault state => .failed ⟨fault, site⟩ state host

end Scriptorium.Machine
