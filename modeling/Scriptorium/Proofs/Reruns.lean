import Scriptorium.Proofs.NativeCalls
import Scriptorium.Proofs.Visits

/-!
# Running again

A machine keeps its globals between runs, so that a run which comes after others begins with all globals defined. Where natives
give results that depend on nothing but their arguments, this cannot be told: the machine comes to the same end, makes the same
calls and leaves the same globals each time (`Memory.runs_repeat`).

Of two machines that do the same, one is ahead (`Ahead`): it has the globals of the other, and perhaps some more that are defined
by the end of the run. It could only be told apart where the other one misses a global; but there the run is at its end, and what
is not defined by then is missing in both.
-/
namespace Scriptorium

/-- Natives with results that depend on nothing but their arguments, whatever they do to the host. -/
def Natives.Heedless {σ : Type} (natives : Natives σ) : Prop :=
  ∀ name native, natives.get? name = some native → ∀ args host host', (native.call args host).1 = (native.call args host').1

theorem Natives.Heedless.respect {σ : Type} {natives : Natives σ} (heedless : natives.Heedless) :
    natives.Respect fun _ _ => True :=
  fun name native found args host host' _ => ⟨_, _, _, rfl, by rw [heedless name native found args host host'], trivial⟩

namespace Machine

open Bytecode (CompiledUnit Instruction)
open Std (HashMap)

/-- The machine at the same work, with other globals. -/
def State.withGlobals (state : State) (globals : HashMap String Value) : State := { state with globals }

/-- The same step of a machine with other globals. -/
def Step.withGlobals {σ : Type} (globals : HashMap String Value) : Step σ → Step σ
  | running state host => running (state.withGlobals globals) host
  | returned state host => returned (state.withGlobals globals) host
  | failed error state host => failed error (state.withGlobals globals) host
  | panicked panic state host => panicked panic (state.withGlobals globals) host

namespace Effect

/-- The same result, left by a machine with other globals. -/
def withGlobals {α : Type} (globals : HashMap String Value) : EStateM.Result Fault State α → EStateM.Result Fault State α
  | .ok a state => .ok a (state.withGlobals globals)
  | .error fault state => .error fault (state.withGlobals globals)

/-- An effect that neither looks at the globals nor changes them. -/
def Blind {α : Type} (effect : Effect α) : Prop :=
  ∀ state globals, effect (state.withGlobals globals) = withGlobals globals (effect state)

theorem Blind.bind {α β : Type} {first : Effect α} {rest : α → Effect β} (firstBlind : Blind first)
    (restBlind : ∀ a, Blind (rest a)) : Blind (first >>= rest) := by
  intro state globals
  show EStateM.bind first rest (state.withGlobals globals) = withGlobals globals (EStateM.bind first rest state)
  unfold EStateM.bind
  rw [firstBlind state globals]
  cases first state with
  | ok a next => exact restBlind a next globals
  | error fault next => rfl

theorem Blind.ite {α : Type} {first second : Effect α} (test : State → Prop) [DecidablePred test]
    (same : ∀ state globals, test (state.withGlobals globals) ↔ test state) (firstBlind : Blind first) (secondBlind : Blind second) :
    Blind fun state => if test state then first state else second state := by
  intro state globals
  by_cases holds : test state
  · simp only [if_pos ((same state globals).mpr holds), if_pos holds, firstBlind state globals]
  · simp only [if_neg (mt (same state globals).mp holds), if_neg holds, secondBlind state globals]

theorem Blind.same {α : Type} {effect : Effect α} (blind : Blind effect) (state : State) :
    (after (effect state)).globals = state.globals := by
  have unchanged : effect state = withGlobals state.globals (effect state) := blind state state.globals
  rw [unchanged]
  cases effect state <;> rfl

private theorem pure_blind {α : Type} (a : α) : Blind (pure a) := fun _ _ => rfl

private theorem push_blind (value : Value) : Blind (push value) := fun _ _ => rfl

private theorem skip_blind (distance : UInt16) : Blind (skip distance) := fun _ _ => rfl

private theorem pop_blind : Blind pop := by
  intro state globals
  simp only [pop, State.withGlobals]
  cases state.stack.back? <;> rfl

private theorem top_blind : Blind top := by
  intro state globals
  simp only [top, State.withGlobals]
  cases state.stack.back? <;> rfl

private theorem constant_blind (index : UInt16) : Blind (constant index) := by
  intro state globals
  simp only [constant, State.withGlobals]
  cases constantAt state.frame.chunk index <;> rfl

private theorem name_blind (index : UInt16) : Blind (name index) := by
  intro state globals
  simp only [name, State.withGlobals]
  cases nameAt state.frame.chunk index <;> rfl

private theorem getLocal_blind (index : UInt8) : Blind (getLocal index) := by
  intro state globals
  simp only [getLocal, State.withGlobals]
  cases state.stack[state.frame.base + index.toNat]? <;> rfl

private theorem setLocal_blind (index : UInt8) (value : Value) : Blind (setLocal index value) :=
  Blind.ite (fun state => state.frame.base + index.toNat < state.stack.size) (fun _ _ => Iff.rfl) (fun _ _ => rfl) fun _ _ => rfl

private theorem operate_blind (applied : Except OperatorFault Value) : Blind (operate applied) := by
  cases applied with
  | ok value => exact push_blind value
  | error fault => exact fun _ _ => rfl

private theorem goBack_blind (distance : UInt16) : Blind (goBack distance) :=
  Blind.ite (fun state => distance.toNat ≤ state.frame.offset) (fun _ _ => Iff.rfl) (fun _ _ => rfl) fun _ _ => rfl

end Effect

/-! ## Machines ahead -/

/-- Globals that hold all that others hold, and besides only some that are defined in the end. -/
structure Ahead (final globals more : HashMap String Value) : Prop where
  has : ∀ (name : String) (value : Value), globals[name]? = some value → more[name]? = some value
  within : Keeps more final

namespace Ahead

variable {final globals more : HashMap String Value}

/-- What is defined now is defined in both. -/
theorem insert {name : String} {value : Value} (ahead : Ahead final globals more)
    (kept : Keeps (globals.insert name value) final) : Ahead final (globals.insert name value) (more.insert name value) where
  has := by
    intro other old found
    rw [HashMap.getElem?_insert] at found ⊢
    split at found
    · rename_i same
      rw [if_pos same, found]
    · rename_i differ
      rw [if_neg differ, ahead.has other old found]
  within := by
    intro other member
    rcases HashMap.mem_insert.mp member with same | before
    · exact kept other (HashMap.mem_insert.mpr (.inl same))
    · exact ahead.within other before

/-- In the end what one misses is missing in both. -/
theorem missing (ahead : Ahead final globals more) (last : Keeps final globals) {name : String} (absent : globals[name]? = none) :
    more[name]? = none := by
  refine HashMap.getElem?_eq_none fun member => ?_
  have there : name ∈ globals := last name (ahead.within name member)
  rw [← HashMap.isSome_getElem?_iff_mem, absent] at there
  cases there

/-- In the end both hold the same. -/
theorem same (ahead : Ahead final final more) (name : String) : more[name]? = final[name]? := by
  cases found : final[name]? with
  | some value => exact ahead.has name value found
  | none => exact ahead.missing (Keeps.refl final) found

end Ahead

namespace Effect

/-- An effect that does the same on a machine that is ahead, as long as all that it defines is defined in the end, and it fails
only in the end. -/
def Repeats {α : Type} (effect : Effect α) : Prop :=
  ∀ final state more, Ahead final state.globals more → Keeps (after (effect state)).globals final →
    (∀ fault next, effect state = .error fault next → Keeps final next.globals) →
      ∃ later, effect (state.withGlobals more) = withGlobals later (effect state) ∧
        Ahead final (after (effect state)).globals later

theorem Blind.repeats {α : Type} {effect : Effect α} (blind : Blind effect) : Repeats effect := by
  intro final state more ahead _ _
  exact ⟨more, blind state more, by rw [blind.same]; exact ahead⟩

theorem Repeats.bind {α β : Type} {first : Effect α} {rest : α → Effect β} (firstRepeats : Repeats first)
    (restRepeats : ∀ a, Repeats (rest a)) (restTame : ∀ a, Tame (rest a)) : Repeats (first >>= rest) := by
  intro final state more ahead
  show Keeps (after (EStateM.bind first rest state)).globals final →
    (∀ fault next, EStateM.bind first rest state = .error fault next → Keeps final next.globals) →
      ∃ later, EStateM.bind first rest (state.withGlobals more) = withGlobals later (EStateM.bind first rest state) ∧
        Ahead final (after (EStateM.bind first rest state)).globals later
  unfold EStateM.bind
  have begun := firstRepeats final state more ahead
  cases done : first state with
  | ok a next =>
    intro kept last
    rw [done] at begun
    obtain ⟨between, same, still⟩ := begun ((restTame a next).1.trans kept) fun _ _ failed => by cases failed
    rw [same]
    exact restRepeats a final next between still kept last
  | error fault next =>
    intro kept last
    rw [done] at begun
    obtain ⟨later, same, still⟩ := begun kept fun _ _ failed => by
      obtain ⟨rfl, rfl⟩ := EStateM.Result.error.inj failed
      exact last fault next rfl
    rw [same]
    exact ⟨later, rfl, still⟩

private theorem getGlobal_repeats (name : String) : Repeats (getGlobal name) := by
  intro final state more ahead
  have other : (state.withGlobals more).globals = more := rfl
  simp only [getGlobal, other]
  cases found : state.globals[name]? with
  | some value =>
    intro _ _
    rw [ahead.has name value found]
    exact ⟨more, rfl, ahead⟩
  | none =>
    intro _ last
    rw [ahead.missing (last _ _ rfl) found]
    exact ⟨more, rfl, ahead⟩

private theorem defineGlobal_repeats (name : String) (value : Value) : Repeats (defineGlobal name value) := by
  intro final state more ahead kept _
  exact ⟨more.insert name value, rfl, ahead.insert kept⟩

private theorem setGlobal_repeats (name : String) (value : Value) : Repeats (setGlobal name value) := by
  intro final state more ahead
  have other : (state.withGlobals more).globals = more := rfl
  simp only [setGlobal, other, HashMap.contains_eq_isSome_getElem?]
  cases found : state.globals[name]? with
  | some old =>
    rw [ahead.has name old found]
    exact defineGlobal_repeats name value final state more ahead
  | none =>
    intro _ last
    rw [ahead.missing (last _ _ rfl) found]
    exact ⟨more, rfl, ahead⟩

end Effect

open Effect in
/-- Instructions do the same on a machine that is ahead. -/
theorem execute_repeats (instruction : Instruction) : Repeats (execute instruction) := by
  cases instruction with
  | constant index => exact ((constant_blind index).bind push_blind).repeats
  | pushNull => exact (push_blind _).repeats
  | pushTrue => exact (push_blind _).repeats
  | pushFalse => exact (push_blind _).repeats
  | pop => exact (pop_blind.bind fun _ => pure_blind _).repeats
  | getLocal index => exact ((getLocal_blind index).bind push_blind).repeats
  | setLocal index => exact (top_blind.bind (setLocal_blind index)).repeats
  | getGlobal index =>
    refine (name_blind index).repeats.bind (fun name => ?_) fun name => (getGlobal_tame name).bind push_tame
    exact (getGlobal_repeats name).bind (fun value => (push_blind value).repeats) push_tame
  | setGlobal index =>
    refine (name_blind index).repeats.bind (fun name => ?_) fun name => top_tame.bind (setGlobal_tame name)
    exact top_blind.repeats.bind (setGlobal_repeats name) (setGlobal_tame name)
  | defineGlobal index =>
    refine (name_blind index).repeats.bind (fun name => ?_) fun name => pop_tame.bind (defineGlobal_tame name)
    exact pop_blind.repeats.bind (defineGlobal_repeats name) (defineGlobal_tame name)
  | binary op => exact (pop_blind.bind fun _ => pop_blind.bind fun _ => operate_blind _).repeats
  | unary op => exact (pop_blind.bind fun _ => operate_blind _).repeats
  | jump distance => exact (skip_blind distance).repeats
  | jumpIfFalse distance | jumpIfTrue distance =>
    refine (top_blind.bind fun value => ?_).repeats
    split
    · exact skip_blind distance
    · exact pure_blind _
  | loop distance => exact (goBack_blind distance).repeats
  | call name count => exact (pure_blind _).repeats
  | giveBack => exact (pure_blind _).repeats

section
variable {σ : Type} (program : Program) (natives : Natives σ)

private theorem executeReturn_withGlobals (site : Site) (state : State) (globals : HashMap String Value) (host : σ) :
    executeReturn site (state.withGlobals globals) host = (executeReturn site state host).withGlobals globals := by
  unfold executeReturn
  rw [Effect.pop_blind state globals]
  cases Effect.pop state with
  | error fault next => rfl
  | ok value next =>
    have waiting : (next.withGlobals globals).callers = next.callers := rfl
    simp only [Effect.withGlobals, waiting]
    cases next.callers <;> rfl

private theorem executeCall_withGlobals (site : Site) (name : String) (count : Nat) (state : State) (globals : HashMap String Value)
    (host : σ) :
    executeCall program natives site name count (state.withGlobals globals) host =
      (executeCall program natives site name count state host).withGlobals globals := by
  have stack : (state.withGlobals globals).stack = state.stack := rfl
  have depth : (state.withGlobals globals).depth = state.depth := rfl
  unfold executeCall
  rw [stack, depth]
  by_cases short : state.stack.size < count
  · simp only [if_pos short]
    rfl
  simp only [if_neg short]
  cases program.functions[name]? with
  | some linked =>
    by_cases other : linked.function.arity ≠ count
    · simp only [if_pos other]
      rfl
    · by_cases deep : maxDepth ≤ state.depth
      · simp only [if_neg other, if_pos deep]
        rfl
      · simp only [if_neg other, if_neg deep]
        rfl
  | none =>
    cases natives.get? name with
    | none => rfl
    | some native =>
      cases accepted : native.accepts count with
      | false =>
        simp only [accepted, Bool.not_false, if_true]
        rfl
      | true =>
        simp only [accepted, Bool.not_true, Bool.false_eq_true, if_false]
        rcases native.call (state.stack.extract (state.stack.size - count)).toList host with ⟨_ | _ | _, after⟩
        all_goals rfl

variable {program natives}

theorem Step.globals_withGlobals (step : Step σ) (globals : HashMap String Value) :
    (step.withGlobals globals).state.globals = globals := by
  cases step <;> rfl

theorem Step.host_withGlobals (step : Step σ) (globals : HashMap String Value) : (step.withGlobals globals).host = step.host := by
  cases step <;> rfl

/-- What an instruction that is no call and no return comes to. -/
def executed (instruction : Instruction) (site : Site) (host : σ) (state : State) : Step σ :=
  match execute instruction state with
  | .ok () state => .running state host
  | .error fault state => .failed ⟨fault, site⟩ state host

variable (program natives)

/-- What a call comes to. -/
def called (index : UInt16) (count : UInt8) (site : Site) (host : σ) (state : State) : Step σ :=
  match Effect.name index state with
  | .error fault state => .failed ⟨fault, site⟩ state host
  | .ok name next => executeCall program natives site name count.toNat next host

/-- What an instruction comes to, in a state that has the offset of the next one. -/
def performed (instruction : Instruction) (site : Site) (host : σ) (state : State) : Step σ :=
  match instruction with
  | .giveBack => executeReturn site state host
  | .call index count => called program natives index count site host state
  | instruction => executed instruction site host state

/-- The machine with the offset of the next instruction. -/
def State.next (state : State) (instruction : Instruction) : State :=
  { state with frame := { state.frame with offset := state.frame.offset + instruction.size } }

theorem step_eq (state : State) (host : σ) :
    step program natives state host =
      match fetch state.frame.chunk state.frame.offset with
      | .error fault => .failed ⟨fault, state.frame.site⟩ state host
      | .ok instruction => performed program natives instruction state.frame.site host (state.next instruction) := by
  unfold step
  cases fetch state.frame.chunk state.frame.offset with
  | error fault => rfl
  | ok instruction => cases instruction <;> rfl

theorem performed_cases (instruction : Instruction) :
    instruction = .giveBack ∨ (∃ index count, instruction = .call index count) ∨
      ∀ (site : Site) (host : σ), performed program natives instruction site host = executed instruction site host := by
  cases instruction with
  | giveBack => exact .inl rfl
  | call index count => exact .inr (.inl ⟨index, count, rfl⟩)
  | constant | pushNull | pushTrue | pushFalse | pop | getLocal | setLocal | getGlobal | setGlobal | defineGlobal
    | binary | unary | jump | jumpIfFalse | jumpIfTrue | loop => exact .inr (.inr fun _ _ => rfl)

variable {program natives}

private theorem called_withGlobals (index : UInt16) (count : UInt8) (site : Site) (host : σ) (state : State)
    (globals : HashMap String Value) :
    called program natives index count site host (state.withGlobals globals) =
      (called program natives index count site host state).withGlobals globals := by
  unfold called
  rw [Effect.name_blind index state globals]
  cases Effect.name index state with
  | error fault next => rfl
  | ok name next => exact executeCall_withGlobals program natives site name count.toNat next globals host

/-- The step of a machine that is ahead, where what the other one does is work on its state. -/
def Step.Repeats (work : State → Step σ) : Prop :=
  ∀ final state more, Ahead final state.globals more → Keeps (work state).state.globals final →
    (∀ error next host, work state = .failed error next host → Keeps final next.globals) →
      ∃ later, work (state.withGlobals more) = (work state).withGlobals later ∧ Ahead final (work state).state.globals later

/-- Work that neither looks at the globals nor changes them is repeated. -/
theorem Step.repeats_of_withGlobals {work : State → Step σ}
    (blind : ∀ state globals, work (state.withGlobals globals) = (work state).withGlobals globals) : Step.Repeats work := by
  intro final state more ahead _ _
  have unchanged : work state = (work state).withGlobals state.globals := blind state state.globals
  refine ⟨more, blind state more, ?_⟩
  rw [unchanged, Step.globals_withGlobals]
  exact ahead

private theorem executed_repeats (instruction : Instruction) (site : Site) (host : σ) :
    Step.Repeats (executed instruction site host) := by
  intro final state more ahead
  have repeated := execute_repeats instruction final state more ahead
  unfold executed
  cases done : execute instruction state with
  | ok _ next =>
    intro kept _
    rw [done] at repeated
    obtain ⟨later, same, still⟩ := repeated kept fun _ _ failed => by cases failed
    rw [same]
    exact ⟨later, rfl, still⟩
  | error fault next =>
    intro kept last
    rw [done] at repeated
    obtain ⟨later, same, still⟩ := repeated kept fun _ _ failed => by
      obtain ⟨rfl, rfl⟩ := EStateM.Result.error.inj failed
      exact last _ next host rfl
    rw [same]
    exact ⟨later, rfl, still⟩

private theorem performed_repeats (instruction : Instruction) (site : Site) (host : σ) :
    Step.Repeats (performed program natives instruction site host) := by
  rcases performed_cases program natives instruction with rfl | ⟨index, count, rfl⟩ | plain
  · exact Step.repeats_of_withGlobals fun state globals => executeReturn_withGlobals site state globals host
  · exact Step.repeats_of_withGlobals (called_withGlobals index count site host)
  · rw [plain]
    exact executed_repeats instruction site host

variable (program natives) in
/-- A step is repeated by a machine that is ahead, as long as all that it defines is defined in the end, and it fails only in
the end. -/
theorem step_repeats (host : σ) : Step.Repeats fun state => step program natives state host := by
  intro final state more ahead
  have frame : (state.withGlobals more).frame = state.frame := rfl
  simp only [step_eq, frame]
  cases fetch state.frame.chunk state.frame.offset with
  | error fault => exact fun _ _ => ⟨more, rfl, ahead⟩
  | ok instruction => exact performed_repeats instruction _ host final (state.next instruction) more ahead

private theorem executed_host (instruction : Instruction) (site : Site) (host : σ) (state : State) :
    (executed instruction site host state).host = host := by
  unfold executed
  split <;> rfl

/-- What a step does to the host does not depend on the globals. -/
theorem step_host_withGlobals (state : State) (globals : HashMap String Value) (host : σ) :
    (step program natives (state.withGlobals globals) host).host = (step program natives state host).host := by
  have frame : (state.withGlobals globals).frame = state.frame := rfl
  have next : ∀ instruction, (state.withGlobals globals).next instruction = (state.next instruction).withGlobals globals :=
    fun _ => rfl
  simp only [step_eq, frame, next]
  cases fetch state.frame.chunk state.frame.offset with
  | error fault => rfl
  | ok instruction =>
    rcases performed_cases program natives instruction with rfl | ⟨index, count, rfl⟩ | plain
    · simp only [performed, executeReturn_withGlobals, Step.host_withGlobals]
    · simp only [performed, called_withGlobals, Step.host_withGlobals]
    · simp only [plain, executed_host]

variable (program natives) in
private theorem callsOfStep_withGlobals (state : State) (globals : HashMap String Value) (host : σ) :
    callsOfStep program natives (state.withGlobals globals) host = callsOfStep program natives state host := by
  unfold callsOfStep
  rw [step_host_withGlobals]

/-- The same end, with other globals. -/
def Ended.withGlobals (ended : Ended σ) (globals : HashMap String Value) : Ended σ :=
  { ended with memory := { ended.memory with globals } }

/-- A run of a machine that is ahead: it comes to the same end and makes the same calls. -/
def RunRepeats (final : HashMap String Value) (ended : Ended σ) (other : Option (Ended σ)) (calls otherCalls : List NativeCall) :
    Prop :=
  ∃ later, other = some (ended.withGlobals later) ∧ Ahead final ended.memory.globals later ∧ otherCalls = calls

private theorem runSteps_repeats {final more : HashMap String Value} {depth steps : Nat} {state : State} {host : σ} {ended : Ended σ}
    (ahead : Ahead final state.globals more) (run : runSteps program natives depth steps state host = some ended)
    (kept : Keeps ended.memory.globals final) (last : ended.result ≠ .finished → Keeps final ended.memory.globals) :
    RunRepeats final ended (runSteps program natives depth steps (state.withGlobals more) host)
      (callsOfSteps program natives steps state host) (callsOfSteps program natives steps (state.withGlobals more) host) := by
  induction steps generalizing state more host with
  | zero => cases run
  | succ steps ih =>
    have repeated := step_repeats program natives host final state more ahead
    have calls := callsOfStep_withGlobals program natives state more host
    beta_reduce at repeated
    simp only [runSteps, callsOfSteps] at run ⊢
    rw [calls]
    generalize step program natives state host = stepped at run repeated
    cases stepped with
    | running next nextHost =>
      have rest : runSteps program natives depth steps next nextHost = some ended := run
      obtain ⟨later, same, still⟩ := repeated ((runSteps_keeps rest).trans kept) (fun _ _ _ failed => by cases failed)
      obtain ⟨after, runs, ends, restCalls⟩ := ih still rest
      rw [same]
      exact ⟨after, runs, ends, congrArg _ restCalls⟩
    | returned next nextHost =>
      obtain rfl := Option.some.inj run
      obtain ⟨later, same, still⟩ := repeated kept (fun _ _ _ failed => by cases failed)
      rw [same]
      exact ⟨later, rfl, still, rfl⟩
    | failed error next nextHost =>
      obtain rfl := Option.some.inj run
      obtain ⟨later, same, still⟩ := repeated kept fun _ _ _ failed => by
        obtain ⟨-, rfl, -⟩ := Step.failed.inj failed
        exact last fun finished => by cases finished
      rw [same]
      exact ⟨later, rfl, still, rfl⟩
    | panicked panic next nextHost =>
      obtain rfl := Option.some.inj run
      obtain ⟨later, same, still⟩ := repeated kept (fun _ _ _ failed => by cases failed)
      rw [same]
      exact ⟨later, rfl, still, rfl⟩

private theorem runBody_repeats {final more : HashMap String Value} {steps : Nat} {compiled : CompiledUnit} {memory : Memory}
    {host : σ}
    {ended : Ended σ} (ahead : Ahead final memory.globals more) (run : runBody program natives steps compiled memory host = some ended)
    (kept : Keeps ended.memory.globals final) (last : ended.result ≠ .finished → Keeps final ended.memory.globals) :
    RunRepeats final ended (runBody program natives steps compiled ⟨more, memory.depth⟩ host)
      (callsOfBody program natives steps compiled memory host)
      (callsOfBody program natives steps compiled ⟨more, memory.depth⟩ host) := by
  unfold runBody at run ⊢
  unfold callsOfBody
  by_cases full : maxDepth ≤ memory.depth
  · simp only [if_pos full] at run ⊢
    obtain rfl := Option.some.inj run
    exact ⟨more, rfl, ahead, rfl⟩
  · simp only [if_neg full] at run ⊢
    have ran : runSteps program natives memory.depth steps (start compiled memory) host = some ended := run
    exact runSteps_repeats ahead ran kept last

private theorem runBodies_keeps {steps : Nat} {bodies : List CompiledUnit} {memory : Memory} {host : σ} {ended : Ended σ}
    (run : runBodies program natives steps memory host bodies = some ended) : Keeps memory.globals ended.memory.globals := by
  induction bodies generalizing memory host with
  | nil =>
    obtain rfl := Option.some.inj run
    exact Keeps.refl _
  | cons compiled bodies ih =>
    rw [runBodies] at run
    split at run
    · rename_i next nextHost body
      exact (runBody_keeps body).trans (ih run)
    · exact runBody_keeps run

private theorem runBodies_repeats {final more : HashMap String Value} {steps : Nat} {bodies : List CompiledUnit}
    {memory : Memory} {host : σ} {ended : Ended σ} (ahead : Ahead final memory.globals more)
    (run : runBodies program natives steps memory host bodies = some ended)
    (kept : Keeps ended.memory.globals final) (last : ended.result ≠ .finished → Keeps final ended.memory.globals) :
    RunRepeats final ended (runBodies program natives steps ⟨more, memory.depth⟩ host bodies)
      (callsOfBodies program natives steps memory host bodies)
      (callsOfBodies program natives steps ⟨more, memory.depth⟩ host bodies) := by
  induction bodies generalizing memory more host with
  | nil =>
    obtain rfl := Option.some.inj run
    exact ⟨more, rfl, ahead, rfl⟩
  | cons compiled bodies ih =>
    simp only [runBodies, callsOfBodies] at run ⊢
    cases body : runBody program natives steps compiled memory host with
    | none =>
      rw [body] at run
      cases run
    | some first =>
      obtain ⟨result, next, nextHost⟩ := first
      rw [body] at run
      cases result with
      | finished =>
        obtain ⟨later, same, still, calls⟩ := runBody_repeats ahead body ((runBodies_keeps run).trans kept) (absurd rfl)
        obtain ⟨after, rest, ends, restCalls⟩ := ih still run
        rw [same, calls]
        exact ⟨after, rest, ends, congrArg _ restCalls⟩
      | failed | panicked =>
        obtain rfl := Option.some.inj run
        obtain ⟨later, same, still, calls⟩ := runBody_repeats ahead body kept last
        rw [same, calls]
        exact ⟨later, rfl, still, rfl⟩

end

/-! ## Runs after runs -/

section
variable {σ : Type}

/-- A run that ends by itself, well or at a fault. -/
def Ended.Returns (ended : Ended σ) : Prop := ∀ panic, ended.result ≠ .panicked panic

theorem Ended.returns_of_finished (memory : Memory) (host : σ) : (⟨.finished, memory, host⟩ : Ended σ).Returns := nofun

/-- What can be told of a run that has ended: the calls of natives that it made, and its end. -/
structure Account (σ : Type) where
  calls : List NativeCall
  ended : Ended σ

variable (program : Program) (natives : Natives σ)

/-- A machine runs again and again, each time with the memory that the time before left behind. -/
def Memory.runs (steps : Nat) : Nat → Memory → σ → Option (List (Account σ))
  | 0, _, _ => some []
  | times + 1, memory, host =>
    match memory.run program natives steps host with
    | none => none
    | some ended =>
      (runs steps times ended.memory ended.host).map (⟨memory.calls program natives steps host, ended⟩ :: ·)

variable {program natives} {steps : Nat} {memory : Memory} {host : σ} {ended : Ended σ}

/-- What is left of a run that ends by itself are as many active calls as before. -/
theorem runSteps_depth {depth : Nat} {state : State} (returns : ended.Returns)
    (run : runSteps program natives depth steps state host = some ended) : ended.memory.depth = depth := by
  induction steps generalizing state host with
  | zero => cases run
  | succ steps ih =>
    rw [runSteps] at run
    cases stepped : step program natives state host with
    | running next nextHost =>
      rw [stepped] at run
      exact ih run
    | returned next nextHost | failed error next nextHost =>
      rw [stepped] at run
      obtain rfl := Option.some.inj run
      rfl
    | panicked panic next nextHost =>
      rw [stepped] at run
      obtain rfl := Option.some.inj run
      exact absurd rfl (returns panic)

theorem runBody_depth {compiled : CompiledUnit} (returns : ended.Returns)
    (run : runBody program natives steps compiled memory host = some ended) : ended.memory.depth = memory.depth := by
  unfold runBody at run
  split at run
  · obtain rfl := Option.some.inj run
    rfl
  · exact runSteps_depth returns run

theorem runBodies_depth {bodies : List CompiledUnit} (returns : ended.Returns)
    (run : runBodies program natives steps memory host bodies = some ended) : ended.memory.depth = memory.depth := by
  induction bodies generalizing memory host with
  | nil =>
    obtain rfl := Option.some.inj run
    rfl
  | cons compiled bodies ih =>
    rw [runBodies] at run
    split at run
    · rename_i next nextHost body
      exact (ih run).trans (runBody_depth (Ended.returns_of_finished next nextHost) body)
    · exact runBody_depth returns run

/-- A run that begins with globals which are defined in the end anyway comes to the same end as one that begins with none,
whatever the host is like. -/
theorem Memory.run_again (heedless : natives.Heedless) (run : Memory.initial.run program natives steps host = some ended)
    (depth : memory.depth = 0) (within : Keeps memory.globals ended.memory.globals) (other : σ) :
    ∃ again, memory.run program natives steps other = some again ∧ again.result = ended.result ∧
      again.memory.depth = ended.memory.depth ∧ (∀ name : String, again.memory.globals[name]? = ended.memory.globals[name]?) ∧
      memory.calls program natives steps other = Memory.initial.calls program natives steps host := by
  obtain ⟨globals, _⟩ := memory
  obtain rfl := depth
  have ahead : Ahead ended.memory.globals Memory.initial.globals globals := ⟨by simp [Memory.initial], within⟩
  obtain ⟨later, same, still, calls⟩ := runBodies_repeats ahead run (Keeps.refl _) fun _ => Keeps.refl _
  have runs : Option.Rel (Ended.Like fun _ _ => True) (Memory.run program natives steps ⟨globals, 0⟩ host)
      (Memory.run program natives steps ⟨globals, 0⟩ other) := Memory.run_respects heedless.respect steps _ trivial
  have again : Memory.run program natives steps ⟨globals, 0⟩ host = some (ended.withGlobals later) := same
  rw [again] at runs
  generalize Memory.run program natives steps ⟨globals, 0⟩ other = run' at runs
  cases runs with
  | @some _ again alike =>
    obtain ⟨result, left, -⟩ := alike
    refine ⟨again, rfl, result.symm, ?_, fun name => ?_, ?_⟩
    · rw [← left]
      rfl
    · rw [← left]
      exact still.same name
    · exact (Memory.calls_like heedless.respect steps _ trivial).trans calls

/-- A machine that has run and returned may run again, any number of times: each run comes to the same end, makes the same calls
and leaves the same globals, and no call counts as active after it. -/
theorem Memory.runs_repeat (program : Program) (natives : Natives σ) (heedless : natives.Heedless) (steps : Nat) (host : σ)
    (ended : Ended σ) (first : Memory.initial.run program natives steps host = some ended) (returns : ended.Returns)
    (times : Nat) :
    ∃ accounts, Memory.initial.runs program natives steps times host = some accounts ∧ accounts.length = times ∧
      ∀ account ∈ accounts, account.ended.result = ended.result ∧
        account.calls = Memory.initial.calls program natives steps host ∧
        (∀ name : String, account.ended.memory.globals[name]? = ended.memory.globals[name]?) ∧ account.ended.memory.depth = 0 := by
  -- of the memory before each run it matters only that no call counts as active, and that its globals are defined in the end
  have from_memory : ∀ (memory : Memory) (other : σ), memory.depth = 0 → Keeps memory.globals ended.memory.globals →
      ∃ accounts, memory.runs program natives steps times other = some accounts ∧ accounts.length = times ∧
        ∀ account ∈ accounts, account.ended.result = ended.result ∧
          account.calls = Memory.initial.calls program natives steps host ∧
          (∀ name : String, account.ended.memory.globals[name]? = ended.memory.globals[name]?) ∧ account.ended.memory.depth = 0 := by
    induction times with
    | zero => exact fun _ _ _ _ => ⟨[], rfl, rfl, List.forall_mem_nil _⟩
    | succ times ih =>
      intro memory other depth within
      obtain ⟨again, run, result, left, globals, calls⟩ := Memory.run_again heedless first depth within other
      have idle : again.memory.depth = 0 := left.trans (runBodies_depth returns first)
      have kept : Keeps again.memory.globals ended.memory.globals := by
        intro name there
        rwa [← HashMap.isSome_getElem?_iff_mem, globals, HashMap.isSome_getElem?_iff_mem] at there
      obtain ⟨accounts, later, length, each⟩ := ih again.memory again.host idle kept
      refine ⟨⟨memory.calls program natives steps other, again⟩ :: accounts, ?_, congrArg (· + 1) length, ?_⟩
      · rw [Memory.runs, run]
        simp only [later, Option.map_some]
      · exact List.forall_mem_cons.mpr ⟨⟨result, calls, globals, idle⟩, each⟩
  exact from_memory Memory.initial host rfl fun name there => absurd there HashMap.not_mem_empty

/-- A native that keeps its arguments. -/
def keepingNatives : Natives (List Value) := ⟨[("keep", ⟨some 1, fun args kept => (.returned .null, kept ++ args)⟩)]⟩

private theorem keepingNatives_heedless : keepingNatives.Heedless := by
  intro name native found args host host'
  obtain rfl : native = ⟨some 1, fun args kept => (.returned .null, kept ++ args)⟩ := by
    simp only [keepingNatives, Natives.get?, List.lookup_cons, List.lookup_nil] at found
    split at found
    · exact (Option.some.inj found).symm
    · cases found
  rfl

/-- A body that defines a global, calls a native with it, and then reads a global that is not there. -/
def missingProgram : Program where
  entry := ⟨"group", false, ["main"]⟩
  initials := []
  units := [⟨"main.zs", Bytecode.Segment.toChunk [⟨1, .pushTrue⟩, ⟨1, .defineGlobal 0⟩, ⟨1, .getGlobal 0⟩, ⟨1, .call 1 1⟩,
    ⟨2, .getGlobal 2⟩] #[.text "there", .text "keep", .text "missing"] true, []⟩]
  functions := ∅

/-- The body fails in the same way each time, though from the second time on the global is there from the beginning. -/
theorem missingProgram_runs_repeat :
    keepingNatives.Heedless ∧ ∃ ended, Memory.initial.run missingProgram keepingNatives 5 [] = some ended ∧ ended.Returns ∧
      ended.result = .failed ⟨.undefinedGlobal "missing", some ⟨"main.zs", some 2⟩⟩ ∧
      ∀ times, ∃ accounts, Memory.initial.runs missingProgram keepingNatives 5 times [] = some accounts ∧ accounts.length = times ∧
        ∀ account ∈ accounts, account.ended.result = ended.result ∧
          account.calls = Memory.initial.calls missingProgram keepingNatives 5 [] ∧
          (∀ name : String, account.ended.memory.globals[name]? = ended.memory.globals[name]?) ∧
          account.ended.memory.depth = 0 := by
  have result : (Memory.initial.run missingProgram keepingNatives 5 []).map Ended.result =
      some (.failed ⟨.undefinedGlobal "missing", some ⟨"main.zs", some 2⟩⟩) := by cbv
  obtain ⟨ended, first, failed⟩ := Option.map_eq_some_iff.mp result
  have returns : ended.Returns := fun panic panicked => by
    rw [failed] at panicked
    cases panicked
  exact ⟨keepingNatives_heedless, ended, first, returns, failed,
    Memory.runs_repeat missingProgram keepingNatives keepingNatives_heedless 5 [] ended first returns⟩

end

end Machine

end Scriptorium
