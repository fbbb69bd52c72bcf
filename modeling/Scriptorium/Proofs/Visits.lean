import Scriptorium.Machine.Run
import Scriptorium.Proofs.MachineRuns

/-!
# Visited states

The states in which a machine takes a step while bodies run one after the other: `Visits`. Whether the run
ends does not matter. Globals are only added on the way (`Keeps`), so that a global which has been defined
stays defined.
-/
namespace Scriptorium.Machine

open Bytecode (CompiledUnit Instruction)
open Std (HashMap)

/-- Every global of one map is a global of the other. -/
def Keeps (before after : HashMap String Value) : Prop := ∀ name, name ∈ before → name ∈ after

theorem Keeps.refl (globals : HashMap String Value) : Keeps globals globals := fun _ member => member

theorem Keeps.trans {a b c : HashMap String Value} (first : Keeps a b) (second : Keeps b c) : Keeps a c :=
  fun name member => second name (first name member)

theorem Keeps.insert (globals : HashMap String Value) (name : String) (value : Value) :
    Keeps globals (globals.insert name value) :=
  fun _ member => HashMap.mem_insert.mpr (.inr member)

/-- A fault of code that cannot be read as instructions. -/
def Fault.Unreadable : Fault → Prop
  | .unknownOpcode _ | .endOfCode | .invalidConstant _ | .notName _ => True
  | _ => False

theorem constantAt_unreadable {chunk : Bytecode.Chunk} {index : UInt16} {fault : Fault}
    (missing : constantAt chunk index = .error fault) : fault.Unreadable := by
  unfold constantAt at missing
  split at missing <;> cases missing
  trivial

theorem nameAt_unreadable {chunk : Bytecode.Chunk} {index : UInt16} {fault : Fault}
    (missing : nameAt chunk index = .error fault) : fault.Unreadable := by
  unfold nameAt at missing
  split at missing
  · cases missing
  · cases missing
    trivial
  · rename_i found absent
    cases missing
    exact constantAt_unreadable absent

private theorem wordAt_unreadable {chunk : Bytecode.Chunk} {offset : Nat} {fault : Fault}
    (missing : wordAt chunk offset = .error fault) : fault.Unreadable := by
  unfold wordAt at missing
  split at missing <;> cases missing
  trivial

private theorem byteAt_unreadable {chunk : Bytecode.Chunk} {offset : Nat} {fault : Fault}
    (missing : byteAt chunk offset = .error fault) : fault.Unreadable := by
  unfold byteAt at missing
  split at missing <;> cases missing
  trivial

private theorem bind_error_of {α β : Type} {P : Fault → Prop} {first : Except Fault α} {rest : α → Except Fault β}
    (firstOf : ∀ fault, first = .error fault → P fault) (restOf : ∀ a fault, rest a = .error fault → P fault) :
    ∀ fault, (first >>= rest) = .error fault → P fault := by
  cases first with
  | ok a => exact restOf a
  | error other =>
    intro fault same
    obtain rfl := Except.error.inj same
    exact firstOf other rfl

/-- An instruction that cannot be fetched cannot be read. -/
theorem fetch_unreadable {chunk : Bytecode.Chunk} {offset : Nat} {fault : Fault} (missing : fetch chunk offset = .error fault) :
    fault.Unreadable := by
  have byte : ∀ offset fault, byteAt chunk offset = .error fault → fault.Unreadable := fun _ _ => byteAt_unreadable
  have word : ∀ offset fault, wordAt chunk offset = .error fault → fault.Unreadable := fun _ _ => wordAt_unreadable
  have name : ∀ index fault, nameAt chunk index = .error fault → fault.Unreadable := fun _ _ => nameAt_unreadable
  unfold fetch at missing
  refine bind_error_of (byte offset) (fun code => ?_) fault missing
  split
  · rintro other ⟨⟩
    trivial
  split
  case h_17 => exact bind_error_of (word _) fun index => bind_error_of (name index) fun _ => bind_error_of (byte _) fun _ _ => nofun
  all_goals first
    | exact bind_error_of (word _) fun _ _ => nofun
    | exact bind_error_of (byte _) fun _ _ => nofun
    | exact fun _ => nofun

namespace Effect

/-- The machine after an effect. -/
def after {α : Type} : EStateM.Result Fault State α → State
  | .ok _ state | .error _ state => state

/-- An effect keeps the globals, and misses none that is there. -/
def Tame {α : Type} (effect : Effect α) : Prop :=
  ∀ state, Keeps state.globals (after (effect state)).globals ∧
    ∀ name next, effect state = .error (.undefinedGlobal name) next → name ∉ state.globals

theorem Tame.bind {α β : Type} {first : Effect α} {rest : α → Effect β} (firstTame : Tame first)
    (restTame : ∀ a, Tame (rest a)) : Tame (first >>= rest) := by
  intro state
  show Keeps state.globals (after (EStateM.bind first rest state)).globals ∧
    ∀ name next, EStateM.bind first rest state = .error (.undefinedGlobal name) next → name ∉ state.globals
  obtain ⟨kept, missed⟩ := firstTame state
  unfold EStateM.bind
  cases done : first state with
  | ok a next =>
    rw [done] at kept
    obtain ⟨keptLater, missedLater⟩ := restTame a next
    exact ⟨kept.trans keptLater, fun name last failed member => missedLater name last failed (kept name member)⟩
  | error fault next =>
    rw [done] at kept missed
    refine ⟨kept, fun name last failed => ?_⟩
    obtain ⟨rfl, rfl⟩ := EStateM.Result.error.inj failed
    exact missed name next rfl

/-- An effect that leaves the globals alone and misses none is tame. -/
theorem tame_of_same {α : Type} {effect : Effect α} (same : ∀ state, (after (effect state)).globals = state.globals)
    (other : ∀ state name next, effect state ≠ .error (.undefinedGlobal name) next) : Tame effect := by
  refine fun state => ⟨?_, fun name next failed => absurd failed (other state name next)⟩
  rw [same state]
  exact Keeps.refl _

private theorem pure_tame {α : Type} (a : α) : Tame (pure a) := tame_of_same (fun _ => rfl) (fun _ _ _ => nofun)

theorem push_tame (value : Value) : Tame (push value) := tame_of_same (fun _ => rfl) (fun _ _ _ => nofun)

private theorem skip_tame (distance : UInt16) : Tame (skip distance) := tame_of_same (fun _ => rfl) (fun _ _ _ => nofun)

theorem pop_tame : Tame pop := by
  refine tame_of_same (fun state => ?_) (fun state name next => ?_) <;> unfold pop
  · cases state.stack.back? <;> rfl
  · cases state.stack.back? <;> nofun

theorem top_tame : Tame top := by
  refine tame_of_same (fun state => ?_) (fun state name next => ?_) <;> unfold top
  · cases state.stack.back? <;> rfl
  · cases state.stack.back? <;> nofun

private theorem constant_tame (index : UInt16) : Tame (constant index) := by
  refine tame_of_same (fun state => ?_) (fun state name next => ?_) <;> unfold constant constantAt
  · cases state.frame.chunk.constants[index.toNat]? <;> rfl
  · cases state.frame.chunk.constants[index.toNat]? <;> nofun

private theorem name_tame (index : UInt16) : Tame (name index) := by
  refine tame_of_same (fun state => ?_) (fun state wanted next failed => ?_)
  · unfold name
    cases nameAt state.frame.chunk index <;> rfl
  · unfold name at failed
    cases looked : nameAt state.frame.chunk index with
    | ok found => simp [looked] at failed
    | error fault =>
      simp only [looked] at failed
      obtain ⟨rfl, rfl⟩ := EStateM.Result.error.inj failed
      exact (nameAt_unreadable looked).elim

private theorem getLocal_tame (index : UInt8) : Tame (getLocal index) := by
  refine tame_of_same (fun state => ?_) (fun state name next => ?_) <;> unfold getLocal <;> dsimp only
  · cases state.stack[state.frame.base + index.toNat]? <;> rfl
  · cases state.stack[state.frame.base + index.toNat]? <;> nofun

private theorem setLocal_tame (index : UInt8) (value : Value) : Tame (setLocal index value) := by
  refine tame_of_same (fun state => ?_) (fun state name next => ?_) <;> unfold setLocal <;> dsimp only
  · split <;> rfl
  · split <;> nofun

private theorem goBack_tame (distance : UInt16) : Tame (goBack distance) := by
  refine tame_of_same (fun state => ?_) (fun state name next => ?_) <;> unfold goBack
  · split <;> rfl
  · split <;> nofun

private theorem operate_tame (applied : Except OperatorFault Value) : Tame (operate applied) := by
  cases applied with
  | ok value => exact push_tame value
  | error fault => exact tame_of_same (fun _ => rfl) (fun _ _ _ => nofun)

theorem getGlobal_tame (name : String) : Tame (getGlobal name) := by
  intro state
  unfold getGlobal
  cases found : state.globals[name]? with
  | some value => exact ⟨Keeps.refl _, fun _ _ => nofun⟩
  | none =>
    refine ⟨Keeps.refl _, fun missed next failed => ?_⟩
    obtain ⟨same, -⟩ := EStateM.Result.error.inj failed
    obtain rfl := Fault.undefinedGlobal.inj same
    rw [← HashMap.isSome_getElem?_iff_mem, found]
    nofun

theorem defineGlobal_tame (name : String) (value : Value) : Tame (defineGlobal name value) :=
  fun state => ⟨Keeps.insert state.globals name value, fun _ _ => nofun⟩

theorem setGlobal_tame (name : String) (value : Value) : Tame (setGlobal name value) := by
  intro state
  unfold setGlobal
  split
  · exact defineGlobal_tame name value state
  · rename_i absent
    refine ⟨Keeps.refl _, fun missed next failed member => absent ?_⟩
    obtain ⟨same, -⟩ := EStateM.Result.error.inj failed
    obtain rfl := Fault.undefinedGlobal.inj same
    exact HashMap.contains_iff_mem.mpr member

end Effect

open Effect in
/-- Instructions keep the globals, and miss none that is there. -/
theorem execute_tame (instruction : Instruction) : Tame (execute instruction) := by
  cases instruction with
  | constant index => exact (constant_tame index).bind push_tame
  | pushNull => exact push_tame _
  | pushTrue => exact push_tame _
  | pushFalse => exact push_tame _
  | pop => exact pop_tame.bind (fun _ => pure_tame _)
  | getLocal index => exact (getLocal_tame index).bind push_tame
  | setLocal index => exact top_tame.bind (setLocal_tame index)
  | getGlobal index => exact (name_tame index).bind (fun name => (getGlobal_tame name).bind push_tame)
  | setGlobal index => exact (name_tame index).bind (fun name => top_tame.bind (setGlobal_tame name))
  | defineGlobal index => exact (name_tame index).bind (fun name => pop_tame.bind (defineGlobal_tame name))
  | binary op => exact pop_tame.bind (fun _ => pop_tame.bind (fun _ => operate_tame _))
  | unary op => exact pop_tame.bind (fun _ => operate_tame _)
  | jump distance => exact skip_tame distance
  | jumpIfFalse distance =>
    refine top_tame.bind (fun value => ?_)
    split
    · exact skip_tame distance
    · exact pure_tame _
  | jumpIfTrue distance =>
    refine top_tame.bind (fun value => ?_)
    split
    · exact skip_tame distance
    · exact pure_tame _
  | loop distance => exact goBack_tame distance
  | call name count => exact pure_tame _
  | giveBack => exact pure_tame _

/-- The machine after a step. -/
def Step.state {σ : Type} : Step σ → State
  | .running state _ | .returned state _ | .failed _ state _ | .panicked _ state _ => state

/-- A step keeps the globals, and misses none that is there. -/
def Step.Tame {σ : Type} (globals : HashMap String Value) (step : Step σ) : Prop :=
  Keeps globals step.state.globals ∧
    ∀ name site next host, step = .failed ⟨.undefinedGlobal name, site⟩ next host → name ∉ globals

section
variable {σ : Type} {program : Program} {natives : Natives σ}

/-- A step that leaves the globals alone and misses none is tame. -/
theorem Step.tame_of_same {globals : HashMap String Value} {step : Step σ} (same : step.state.globals = globals)
    (other : ∀ name site next host, step ≠ .failed ⟨.undefinedGlobal name, site⟩ next host) : step.Tame globals := by
  refine ⟨?_, fun name site next host failed => absurd failed (other name site next host)⟩
  rw [same]
  exact Keeps.refl _

private theorem executeReturn_tame (site : Site) (state : State) (host : σ) :
    (executeReturn site state host).Tame state.globals := by
  obtain ⟨kept, missed⟩ := Effect.pop_tame state
  unfold executeReturn
  cases popped : Effect.pop state with
  | error fault next =>
    rw [popped] at kept missed
    refine ⟨kept, fun name site last lastHost failed => ?_⟩
    obtain ⟨same, -⟩ := Step.failed.inj failed
    obtain ⟨rfl, -⟩ := RunError.mk.inj same
    exact missed name next rfl
  | ok value next =>
    rw [popped] at kept
    simp only
    cases next.callers with
    | nil => exact ⟨kept, fun _ _ _ _ => nofun⟩
    | cons caller callers => exact ⟨kept, fun _ _ _ _ => nofun⟩

private theorem executeCall_tame (program : Program) (natives : Natives σ) (site : Site) (name : String) (count : Nat)
    (state : State) (host : σ) : (executeCall program natives site name count state host).Tame state.globals := by
  refine Step.tame_of_same ?_ (fun missed site next host failed => ?_)
  · unfold executeCall
    split
    · rfl
    simp only
    split
    · split
      · rfl
      · split <;> rfl
    · split
      · rfl
      · split
        · rfl
        · split <;> rfl
  · unfold executeCall at failed
    split at failed
    · cases failed
    simp only at failed
    split at failed
    · split at failed
      · cases failed
      · split at failed <;> cases failed
    · split at failed
      · cases failed
      · split at failed
        · cases failed
        · split at failed <;> cases failed

/-- What an instruction that is no call and no return comes to is tame. -/
theorem executed_tame (instruction : Instruction) (site : Site) (state : State) (host : σ) :
    (match execute instruction state with
      | .ok () state => Step.running state host
      | .error fault state => .failed ⟨fault, site⟩ state host).Tame state.globals := by
  obtain ⟨kept, missed⟩ := execute_tame instruction state
  cases executed : execute instruction state with
  | ok _ next =>
    rw [executed] at kept
    exact ⟨kept, fun _ _ _ _ => nofun⟩
  | error fault next =>
    rw [executed] at kept missed
    refine ⟨kept, fun name site last lastHost failed => ?_⟩
    obtain ⟨same, -⟩ := Step.failed.inj failed
    obtain ⟨rfl, -⟩ := RunError.mk.inj same
    exact missed name next rfl

/-- What a call comes to is tame. -/
theorem called_tame (index : UInt16) (count : UInt8) (site : Site) (state : State) (host : σ) :
    (match Effect.name index state with
      | .error fault state => Step.failed ⟨fault, site⟩ state host
      | .ok name next => executeCall program natives site name count.toNat next host).Tame state.globals := by
  obtain ⟨kept, missed⟩ := Effect.name_tame index state
  cases named : Effect.name index state with
  | ok name next =>
    rw [named] at kept
    obtain ⟨keptLater, missedLater⟩ := executeCall_tame program natives site name count.toNat next host
    exact ⟨kept.trans keptLater, fun missing site last lastHost failed member =>
      missedLater missing site last lastHost failed (kept missing member)⟩
  | error fault next =>
    rw [named] at kept missed
    refine ⟨kept, fun name site last lastHost failed => ?_⟩
    obtain ⟨same, -⟩ := Step.failed.inj failed
    obtain ⟨rfl, -⟩ := RunError.mk.inj same
    exact missed name next rfl

/-- A step keeps the globals however it comes out, and a global that it misses is not there. -/
theorem step_tame (program : Program) (natives : Natives σ) (state : State) (host : σ) : (step program natives state host).Tame state.globals := by
  unfold step
  simp only
  cases fetched : fetch state.frame.chunk state.frame.offset with
  | error fault =>
    refine Step.tame_of_same rfl (fun name site next nextHost failed => ?_)
    obtain ⟨same, -⟩ := Step.failed.inj failed
    obtain ⟨rfl, -⟩ := RunError.mk.inj same
    exact (fetch_unreadable fetched).elim
  | ok instruction =>
    let next : State := { state with frame := { state.frame with offset := state.frame.offset + instruction.size } }
    cases same : instruction with
    | giveBack =>
      simp only [← same]
      exact executeReturn_tame _ next host
    | call index count =>
      simp only [← same]
      exact called_tame index count _ next host
    | constant | pushNull | pushTrue | pushFalse | pop | getLocal | setLocal | getGlobal | setGlobal | defineGlobal
      | binary | unary | jump | jumpIfFalse | jumpIfTrue | loop =>
      simp only [← same]
      exact executed_tame instruction _ next host

theorem Reaches.keeps {n : Nat} {state last : State} {host lastHost : σ}
    (run : Reaches program natives n state host last lastHost) : Keeps state.globals last.globals := by
  induction run with
  | refl => exact Keeps.refl _
  | @step n state next last host nextHost lastHost first _ ih =>
    have kept := (step_tame program natives state host).1
    rw [first] at kept
    exact kept.trans ih

theorem runSteps_keeps {depth steps : Nat} {state : State} {host : σ} {ended : Ended σ}
    (run : runSteps program natives depth steps state host = some ended) : Keeps state.globals ended.memory.globals := by
  induction steps generalizing state host with
  | zero => cases run
  | succ steps ih =>
    have kept := (step_tame program natives state host).1
    rw [runSteps] at run
    cases stepped : step program natives state host with
    | running next nextHost =>
      rw [stepped] at run kept
      exact kept.trans (ih run)
    | returned next nextHost | failed error next nextHost | panicked panic next nextHost =>
      rw [stepped] at run kept
      obtain rfl := Option.some.inj run
      exact kept

/-- The state in which a body begins. -/
def start (compiled : CompiledUnit) (memory : Memory) : State :=
  ⟨⟨compiled.body, compiled.source, 0, 0⟩, [], memory.depth + 1, #[], memory.globals⟩

theorem runBody_eq {steps : Nat} {compiled : CompiledUnit} {memory : Memory} {host : σ} (room : memory.depth < maxDepth) :
    runBody program natives steps compiled memory host =
      runSteps program natives memory.depth steps (start compiled memory) host := by
  rw [runBody, if_neg (Nat.not_le_of_lt room)]
  rfl

/-- A body that finishes had room to begin. -/
theorem runBody_room {steps : Nat} {compiled : CompiledUnit} {memory next : Memory} {host nextHost : σ}
    (run : runBody program natives steps compiled memory host = some ⟨.finished, next, nextHost⟩) :
    memory.depth < maxDepth := by
  unfold runBody at run
  split at run
  · cases run
  · rename_i room
    exact Nat.lt_of_not_le room

theorem runBody_keeps {steps : Nat} {compiled : CompiledUnit} {memory : Memory} {host : σ} {ended : Ended σ}
    (run : runBody program natives steps compiled memory host = some ended) :
    Keeps memory.globals ended.memory.globals := by
  unfold runBody at run
  split at run
  · obtain rfl := Option.some.inj run
    exact Keeps.refl _
  · exact runSteps_keeps run

/-- Where bodies fail, one of them fails. -/
theorem runBodies_failed {steps : Nat} {bodies : List CompiledUnit} {memory after : Memory} {host last : σ}
    {error : RunError} (run : runBodies program natives steps memory host bodies = some ⟨.failed error, after, last⟩) :
    ∃ compiled ∈ bodies, ∃ before beforeHost,
      runBody program natives steps compiled before beforeHost = some ⟨.failed error, after, last⟩ := by
  induction bodies generalizing memory host with
  | nil => cases run
  | cons compiled bodies ih =>
    rw [runBodies] at run
    split at run
    · obtain ⟨other, member, rest⟩ := ih run
      exact ⟨other, List.mem_cons_of_mem _ member, rest⟩
    · exact ⟨compiled, List.mem_cons_self, memory, host, run⟩

variable (program natives)

/-- A machine that runs bodies one after the other, from a memory and a state of the host, comes to take a step
in a state. -/
inductive Visits : List CompiledUnit → Memory → σ → State → σ → Prop
  | here {compiled : CompiledUnit} {rest : List CompiledUnit} {memory : Memory} {host : σ} {n : Nat} {state : State}
      {stateHost : σ} (room : memory.depth < maxDepth)
      (run : Reaches program natives n (start compiled memory) host state stateHost) :
      Visits (compiled :: rest) memory host state stateHost
  | later {compiled : CompiledUnit} {rest : List CompiledUnit} {memory next : Memory} {host nextHost : σ} {steps : Nat}
      {state : State} {stateHost : σ}
      (ended : runBody program natives steps compiled memory host = some ⟨.finished, next, nextHost⟩)
      (visits : Visits rest next nextHost state stateHost) : Visits (compiled :: rest) memory host state stateHost

variable {program natives}

theorem Visits.keeps {bodies : List CompiledUnit} {memory : Memory} {host stateHost : σ} {state : State}
    (visits : Visits program natives bodies memory host state stateHost) : Keeps memory.globals state.globals := by
  induction visits with
  | here room run => exact run.keeps
  | later ended _ ih => exact (runBody_keeps ended).trans ih

/-- A fault of a visited state is the end of a run of its body. -/
theorem Visits.runBody_failed {bodies : List CompiledUnit} {memory : Memory} {host stateHost : σ} {state : State}
    (visits : Visits program natives bodies memory host state stateHost) {error : RunError} {failed : State} {failedHost : σ}
    (fails : step program natives state stateHost = .failed error failed failedHost) :
    ∃ compiled ∈ bodies, ∃ steps before beforeHost after, before.depth < maxDepth ∧
      runBody program natives steps compiled before beforeHost = some ⟨.failed error, after, failedHost⟩ := by
  induction visits with
  | @here compiled rest memory host n state stateHost room run =>
    refine ⟨compiled, List.mem_cons_self, n + 1, memory, host, ⟨failed.globals, memory.depth⟩, room, ?_⟩
    rw [runBody_eq room, run.runSteps_eq, runSteps, fails]
  | later _ _ ih =>
    obtain ⟨compiled, member, rest⟩ := ih fails
    exact ⟨compiled, List.mem_cons_of_mem _ member, rest⟩

end

end Scriptorium.Machine
