import Scriptorium.Machine.Step

/-!
# Runs

A machine runs the initial values of a program and then its units, each on an empty stack. Scripts may
run for ever; a run is given the greatest number of steps for each body, and one that needs more is
unfinished, which is no answer.

A machine can run again. It keeps its globals; and after a panic it still counts the calls that were
active as such.
-/
namespace Scriptorium.Machine

open Bytecode (CompiledUnit)
open Std (HashMap)

/-- How running ends. -/
inductive RunResult
  | finished
  | failed (error : RunError)
  | panicked (panic : Panic)
deriving DecidableEq, Repr

/-- What a machine keeps between runs: the globals, and how many calls count as active. -/
structure Memory where
  globals : HashMap String Value
  depth : Nat

/-- The memory before any run. -/
def Memory.initial : Memory := ⟨∅, 0⟩

/-- A run, or a part of one, that has come to its end. -/
structure Ended (σ : Type) where
  result : RunResult
  memory : Memory
  host : σ

variable {σ : Type} (program : Program) (natives : Natives σ)

/-- Steps until the body that runs has come to its end; `depth` is the number of calls that count as
active when it has. Absent when this takes more than the given number of steps. -/
def runSteps (depth : Nat) : Nat → State → σ → Option (Ended σ)
  | 0, _, _ => none
  | steps + 1, state, host =>
    match step program natives state host with
    | .running state host => runSteps depth steps state host
    | .returned state host => some ⟨.finished, ⟨state.globals, depth⟩, host⟩
    | .failed error state host => some ⟨.failed error, ⟨state.globals, depth⟩, host⟩
    | .panicked panic state host => some ⟨.panicked panic, ⟨state.globals, state.depth⟩, host⟩

/-- Runs a body on an empty stack. -/
def runBody (steps : Nat) (compiled : CompiledUnit) (memory : Memory) (host : σ) : Option (Ended σ) :=
  if maxDepth ≤ memory.depth then some ⟨.failed ⟨.stackOverflow, none⟩, memory, host⟩
  else
    runSteps program natives memory.depth steps
      ⟨⟨compiled.body, compiled.source, 0, 0⟩, [], memory.depth + 1, #[], memory.globals⟩ host

/-- Runs bodies one after the other, up to the first that does not finish well. -/
def runBodies (steps : Nat) (memory : Memory) (host : σ) : List CompiledUnit → Option (Ended σ)
  | [] => some ⟨.finished, memory, host⟩
  | compiled :: rest =>
    match runBody program natives steps compiled memory host with
    | some ⟨.finished, memory, host⟩ => runBodies steps memory host rest
    | ended => ended

/-- Runs a program. -/
def Memory.run (steps : Nat) (memory : Memory) (host : σ) : Option (Ended σ) :=
  runBodies program natives steps memory host program.bodies

end Scriptorium.Machine
