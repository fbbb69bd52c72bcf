import Scriptorium.Proofs.RunErrors

/-!
# The budget of calls

How many calls a machine lets be active at once, over any history of runs. A run that returns or fails leaves no call behind that
counts as active; one that ends in a panic leaves all of them (`Past.Leaves`). So a run that fails for want of room has tried to have
more calls active than `maxDepth` less what panics have left behind, and every run that tries this fails
(`Memory.History.overflows_iff_over_budget`). After runs of which none has panicked this is all of `maxDepth`; a machine in which natives
have panicked often enough refuses a run that wants no more than one (`panics_spend_budget`).
-/
namespace Scriptorium

namespace Machine

open Bytecode (Chunk CompiledUnit Instruction)

/-- The number of calls that are active: the one that runs, and those that wait for it. -/
def State.active (state : State) : Nat := state.callers.length + 1

/-- What a machine counts as active: the calls that are, and `worn` more. -/
def State.Counts (worn : Nat) (state : State) : Prop := state.depth = worn + state.active

namespace Effect

/-- An effect neither begins a call nor ends one, and does not fail for want of room. -/
def Calm {α : Type} (effect : Effect α) : Prop :=
  ∀ state, (after (effect state)).depth = state.depth ∧ (after (effect state)).callers = state.callers ∧
    ∀ next, effect state ≠ .error .stackOverflow next

theorem Calm.bind {α β : Type} {first : Effect α} {rest : α → Effect β} (firstCalm : Calm first) (restCalm : ∀ a, Calm (rest a)) :
    Calm (first >>= rest) := by
  intro state
  show (after (EStateM.bind first rest state)).depth = state.depth ∧ (after (EStateM.bind first rest state)).callers = state.callers ∧
    ∀ next, EStateM.bind first rest state ≠ .error .stackOverflow next
  obtain ⟨depth, callers, room⟩ := firstCalm state
  unfold EStateM.bind
  cases done : first state with
  | ok a next =>
    rw [done] at depth callers
    obtain ⟨laterDepth, laterCallers, laterRoom⟩ := restCalm a next
    exact ⟨laterDepth.trans depth, laterCallers.trans callers, laterRoom⟩
  | error fault next =>
    rw [done] at depth callers room
    refine ⟨depth, callers, fun last failed => ?_⟩
    obtain ⟨rfl, -⟩ := EStateM.Result.error.inj failed
    exact room next rfl

private theorem pure_calm {α : Type} (a : α) : Calm (pure a) := fun _ => ⟨rfl, rfl, nofun⟩

private theorem push_calm (value : Value) : Calm (push value) := fun _ => ⟨rfl, rfl, nofun⟩

private theorem skip_calm (distance : UInt16) : Calm (skip distance) := fun _ => ⟨rfl, rfl, nofun⟩

private theorem defineGlobal_calm (name : String) (value : Value) : Calm (defineGlobal name value) := fun _ => ⟨rfl, rfl, nofun⟩

theorem pop_calm : Calm pop := by
  intro state
  unfold pop
  split <;> exact ⟨rfl, rfl, nofun⟩

private theorem top_calm : Calm top := by
  intro state
  unfold top
  split <;> exact ⟨rfl, rfl, nofun⟩

private theorem constant_calm (index : UInt16) : Calm (constant index) := by
  intro state
  unfold constant
  split
  · exact ⟨rfl, rfl, nofun⟩
  · rename_i fault missing
    refine ⟨rfl, rfl, fun next failed => ?_⟩
    obtain ⟨rfl, -⟩ := EStateM.Result.error.inj failed
    exact (constantAt_unreadable missing).elim

private theorem name_calm (index : UInt16) : Calm (name index) := by
  intro state
  unfold name
  split
  · exact ⟨rfl, rfl, nofun⟩
  · rename_i fault missing
    refine ⟨rfl, rfl, fun next failed => ?_⟩
    obtain ⟨rfl, -⟩ := EStateM.Result.error.inj failed
    exact (nameAt_unreadable missing).elim

private theorem getLocal_calm (index : UInt8) : Calm (getLocal index) := by
  intro state
  unfold getLocal
  dsimp only
  split <;> exact ⟨rfl, rfl, nofun⟩

private theorem setLocal_calm (index : UInt8) (value : Value) : Calm (setLocal index value) := by
  intro state
  unfold setLocal
  dsimp only
  split <;> exact ⟨rfl, rfl, nofun⟩

private theorem getGlobal_calm (name : String) : Calm (getGlobal name) := by
  intro state
  unfold getGlobal
  split <;> exact ⟨rfl, rfl, nofun⟩

private theorem setGlobal_calm (name : String) (value : Value) : Calm (setGlobal name value) := by
  intro state
  unfold setGlobal
  split
  · exact defineGlobal_calm name value state
  · exact ⟨rfl, rfl, nofun⟩

private theorem goBack_calm (distance : UInt16) : Calm (goBack distance) := by
  intro state
  unfold goBack
  split <;> exact ⟨rfl, rfl, nofun⟩

private theorem operate_calm (applied : Except OperatorFault Value) : Calm (operate applied) := by
  cases applied with
  | ok value => exact push_calm value
  | error fault => exact fun _ => ⟨rfl, rfl, nofun⟩

end Effect

open Effect in
/-- Instructions that are no calls and no returns leave the calls as they are. -/
theorem execute_calm (instruction : Instruction) : Calm (execute instruction) := by
  cases instruction with
  | constant index => exact (constant_calm index).bind push_calm
  | pushNull => exact push_calm _
  | pushTrue => exact push_calm _
  | pushFalse => exact push_calm _
  | pop => exact pop_calm.bind fun _ => pure_calm _
  | getLocal index => exact (getLocal_calm index).bind push_calm
  | setLocal index => exact top_calm.bind (setLocal_calm index)
  | getGlobal index => exact (name_calm index).bind fun name => (getGlobal_calm name).bind push_calm
  | setGlobal index => exact (name_calm index).bind fun name => top_calm.bind (setGlobal_calm name)
  | defineGlobal index => exact (name_calm index).bind fun name => pop_calm.bind (defineGlobal_calm name)
  | binary op => exact pop_calm.bind fun _ => pop_calm.bind fun _ => operate_calm _
  | unary op => exact pop_calm.bind fun _ => operate_calm _
  | jump distance => exact skip_calm distance
  | jumpIfFalse distance | jumpIfTrue distance =>
    refine top_calm.bind fun value => ?_
    split
    · exact skip_calm distance
    · exact pure_calm _
  | loop distance => exact goBack_calm distance
  | call name count => exact pure_calm _
  | giveBack => exact pure_calm _

section
variable {σ : Type} {program : Program} {natives : Natives σ}

/-- An instruction is a call of a function of the program, with as many arguments as it takes. -/
def State.Enters (program : Program) (state : State) : Prop :=
  ∃ index count name linked, fetch state.frame.chunk state.frame.offset = .ok (.call index count) ∧
    nameAt state.frame.chunk index = .ok name ∧ program.functions[name]? = some linked ∧
    count.toNat ≤ state.stack.size ∧ linked.function.arity = count.toNat

/-- A step that fails, and does so for want of room. -/
def Step.Overflows : Step σ → Prop
  | .failed error _ _ => error.fault = .stackOverflow
  | .running _ _ | .returned _ _ | .panicked _ _ _ => False

private theorem executeReturn_counts {worn : Nat} {state : State} (counts : state.Counts worn) (site : Site) (host : σ) :
    (executeReturn site state host).state.Counts worn := by
  obtain ⟨depth, callers, -⟩ := Effect.pop_calm state
  unfold executeReturn
  cases popped : Effect.pop state with
  | error fault next =>
    rw [popped] at depth callers
    simp only [State.Counts, State.active, Effect.after, Step.state] at counts depth callers ⊢
    rw [depth, callers, counts]
  | ok value next =>
    rw [popped] at depth callers
    simp only [State.Counts, State.active, Effect.after] at counts depth callers ⊢
    rcases waiting : next.callers with _ | ⟨caller, outer⟩
    · simp only [Step.state]
      rw [depth, callers, counts]
    · rw [← callers, waiting, ← depth, List.length_cons] at counts
      simp only [Step.state, State.leave]
      omega

private theorem executeReturn_not_overflows (site : Site) (state : State) (host : σ) : ¬
    (executeReturn site state host).Overflows := by
  have room := (Effect.pop_calm state).2.2
  unfold executeReturn
  split
  · rename_i fault next popped
    rintro rfl
    exact room next popped
  · split <;> exact id

private theorem executed_not_overflows (instruction : Instruction) (site : Site) (host : σ) (state : State) :
    ¬ (executed instruction site host state).Overflows := by
  have room := (execute_calm instruction state).2.2
  unfold executed
  split
  · exact id
  · rename_i fault next done
    rintro rfl
    exact room next done

private theorem executeCall_counts {worn : Nat} {state : State} (counts : state.Counts worn) (site : Site) (name : String)
    (count : Nat) (host : σ) : (executeCall program natives site name count state host).state.Counts worn := by
  unfold executeCall
  split
  · exact counts
  simp only
  split
  · split
    · exact counts
    · split
      · exact counts
      · simp only [State.Counts, State.active, Step.state, State.enter, List.length_cons] at counts ⊢
        omega
  · split
    · exact counts
    · split
      · exact counts
      · split <;> exact counts

private theorem executeCall_overflows_iff (site : Site) (name : String) (count : Nat) (state : State) (host : σ) :
    (executeCall program natives site name count state host).Overflows ↔
      ∃ linked, program.functions[name]? = some linked ∧ count ≤ state.stack.size ∧ linked.function.arity = count ∧
        maxDepth ≤ state.depth := by
  unfold executeCall
  by_cases few : state.stack.size < count
  · simp only [if_pos few, Step.Overflows]
    constructor
    · rintro ⟨⟩
    · rintro ⟨linked, -, enough, -⟩
      omega
  rw [if_neg few]
  simp only
  cases found : program.functions[name]? with
  | some linked =>
    by_cases right : linked.function.arity = count
    · by_cases full : maxDepth ≤ state.depth
      · simp [right, full, Step.Overflows]
        omega
      · simp [right, full, Step.Overflows]
    · simp [right, Step.Overflows]
  | none =>
    simp only [reduceCtorEq, false_and, exists_false, iff_false]
    split
    · exact nofun
    · split
      · exact nofun
      · split <;> exact nofun

private theorem performed_counts {worn : Nat} {state : State} (counts : state.Counts worn) (instruction : Instruction) (site : Site)
    (host : σ) : (performed program natives instruction site host state).state.Counts worn := by
  obtain rfl | ⟨index, count, rfl⟩ | plain := performed_cases program natives instruction
  · exact executeReturn_counts counts site host
  · show (called program natives index count site host state).state.Counts worn
    unfold called Effect.name
    cases nameAt state.frame.chunk index with
    | error fault => exact counts
    | ok name => exact executeCall_counts counts site name _ host
  · rw [plain site host]
    obtain ⟨depth, callers, -⟩ := execute_calm instruction state
    unfold executed
    cases done : execute instruction state with
    | ok _ next | error _ next =>
      rw [done] at depth callers
      simp only [State.Counts, State.active, Effect.after, Step.state] at counts depth callers ⊢
      rw [depth, callers, counts]

variable (program natives) in
/-- A step keeps count of the active calls, however it comes out. -/
theorem step_counts {worn : Nat} {state : State} (counts : state.Counts worn) (host : σ) :
    (step program natives state host).state.Counts worn := by
  rw [step_eq]
  split
  · exact counts
  · rename_i instruction fetched
    have next : (state.next instruction).Counts worn := counts
    exact performed_counts next instruction _ host

variable (program natives) in
/-- A step fails for want of room iff it is a call of a function while as many calls count as active as there may be. -/
theorem step_overflows_iff (state : State) (host : σ) :
    (step program natives state host).Overflows ↔ state.Enters program ∧ maxDepth ≤ state.depth := by
  rw [step_eq]
  cases fetched : fetch state.frame.chunk state.frame.offset with
  | error fault =>
    -- code that cannot be read is a fault of its own
    simp only [Step.Overflows, State.Enters, fetched, reduceCtorEq, false_and, exists_false, iff_false]
    rintro rfl
    exact fetch_unreadable fetched
  | ok instruction =>
    cases instruction with
    | giveBack =>
      simp only [performed, executeReturn_not_overflows, State.Enters, fetched, Except.ok.injEq, reduceCtorEq, false_and,
        exists_false]
    | call index count =>
      have chunk : (state.next (.call index count)).frame.chunk = state.frame.chunk := rfl
      simp only [performed, called, Effect.name, chunk]
      cases named : nameAt state.frame.chunk index with
      | error fault =>
        simp only [Step.Overflows, State.Enters, fetched, Except.ok.injEq, Instruction.call.injEq]
        constructor
        · rintro rfl
          exact (nameAt_unreadable named).elim
        · rintro ⟨⟨_, _, name, linked, ⟨rfl, rfl⟩, found, -⟩, -⟩
          rw [named] at found
          cases found
      | ok name =>
        simp only [executeCall_overflows_iff, State.Enters, fetched, Except.ok.injEq, Instruction.call.injEq]
        constructor
        · rintro ⟨linked, found, enough, right, full⟩
          exact ⟨⟨index, count, name, linked, ⟨rfl, rfl⟩, named, found, enough, right⟩, full⟩
        · rintro ⟨⟨_, _, other, linked, ⟨rfl, rfl⟩, same, found, enough, right⟩, full⟩
          obtain rfl := Except.ok.inj (named.symm.trans same)
          exact ⟨linked, found, enough, right, full⟩
    | constant | pushNull | pushTrue | pushFalse | pop | getLocal | setLocal | getGlobal | setGlobal | defineGlobal
      | binary | unary | jump | jumpIfFalse | jumpIfTrue | loop =>
      simp only [performed, executed_not_overflows, State.Enters, fetched, Except.ok.injEq, reduceCtorEq, false_and, exists_false]

theorem Reaches.counts {worn n : Nat} {state last : State} {host lastHost : σ}
    (run : Reaches program natives n state host last lastHost)
    (counts : state.Counts worn) : last.Counts worn := by
  induction run with
  | refl => exact counts
  | @step n state next last host nextHost lastHost first _ ih =>
    have kept := step_counts program natives counts host
    rw [first] at kept
    exact ih kept

/-- In every state that a run visits, the machine counts the active calls of the run and what it counted before the run. -/
theorem Visits.counts {bodies : List CompiledUnit} {memory : Memory} {host stateHost : σ} {state : State}
    (visits : Visits program natives bodies memory host state stateHost) : state.Counts memory.depth := by
  induction visits with
  | here room run => exact run.counts rfl
  | @later compiled rest memory next host nextHost steps state stateHost ended _ ih =>
    have same : next.depth = memory.depth := runBody_depth (Ended.returns_of_finished next nextHost) ended
    rwa [same] at ih

private theorem runSteps_more {depth steps more : Nat} {state : State} {host : σ} {ended : Ended σ}
    (run : runSteps program natives depth steps state host = some ended) (le : steps ≤ more) :
    runSteps program natives depth more state host = some ended := by
  induction steps generalizing more state host with
  | zero => cases run
  | succ steps ih =>
    obtain ⟨more, rfl⟩ := Nat.exists_eq_add_of_le' (Nat.le_trans (Nat.le_add_left 1 steps) le)
    rw [runSteps] at run ⊢
    cases stepped : step program natives state host with
    | running next nextHost =>
      rw [stepped] at run
      exact ih run (by omega)
    | returned | failed | panicked =>
      rw [stepped] at run
      exact run

private theorem runBody_more {steps more : Nat} {compiled : CompiledUnit} {memory : Memory} {host : σ} {ended : Ended σ}
    (run : runBody program natives steps compiled memory host = some ended) (le : steps ≤ more) :
    runBody program natives more compiled memory host = some ended := by
  unfold runBody at run ⊢
  split at run
  · rwa [if_pos ‹_›]
  · rw [if_neg ‹_›]
    exact runSteps_more run le

private theorem runBodies_more {steps more : Nat} {bodies : List CompiledUnit} {memory : Memory} {host : σ} {ended : Ended σ}
    (run : runBodies program natives steps memory host bodies = some ended) (le : steps ≤ more) :
    runBodies program natives more memory host bodies = some ended := by
  induction bodies generalizing memory host with
  | nil => exact run
  | cons compiled bodies ih =>
    rw [runBodies] at run ⊢
    cases body : runBody program natives steps compiled memory host with
    | none =>
      rw [body] at run
      cases run
    | some first =>
      rw [body] at run
      rw [runBody_more body le]
      obtain ⟨result, next, nextHost⟩ := first
      cases result with
      | finished => exact ih run
      | failed | panicked => exact run

/-- A run that comes to a step that fails ends with it. -/
theorem Visits.run_fails {bodies : List CompiledUnit} {memory : Memory} {host stateHost : σ} {state : State}
    (visits : Visits program natives bodies memory host state stateHost) {error : RunError} {failed : State} {failedHost : σ}
    (fails : step program natives state stateHost = .failed error failed failedHost) :
    ∃ steps after, runBodies program natives steps memory host bodies = some ⟨.failed error, after, failedHost⟩ := by
  induction visits with
  | @here compiled rest memory host n state stateHost room run =>
    refine ⟨n + 1, ⟨failed.globals, memory.depth⟩, ?_⟩
    rw [runBodies, runBody_eq room, run.runSteps_eq, runSteps, fails]
  | @later compiled rest memory next host nextHost steps state stateHost ended _ ih =>
    -- the steps that the first body took and those of the others need not agree; the greater number does for both
    obtain ⟨others, after, run⟩ := ih fails
    refine ⟨max steps others, after, ?_⟩
    rw [runBodies, runBody_more ended (Nat.le_max_left ..)]
    exact runBodies_more run (Nat.le_max_right ..)

/-- A run that ends in a panic comes to a step that does, and leaves behind what the machine counts then. -/
theorem runSteps_panicked {depth steps : Nat} {state : State} {host last : σ} {panic : Panic} {after : Memory}
    (run : runSteps program natives depth steps state host = some ⟨.panicked panic, after, last⟩) :
    ∃ n mid midHost unwound, Reaches program natives n state host mid midHost ∧
      step program natives mid midHost = .panicked panic unwound last ∧ after.depth = unwound.depth := by
  induction steps generalizing state host with
  | zero => cases run
  | succ steps ih =>
    rw [runSteps] at run
    cases stepped : step program natives state host with
    | running next nextHost =>
      rw [stepped] at run
      obtain ⟨n, mid, midHost, unwound, reaches, panics, left⟩ := ih run
      exact ⟨_, mid, midHost, unwound, (Reaches.one stepped).trans reaches, panics, left⟩
    | panicked found next nextHost =>
      rw [stepped] at run
      obtain ⟨result, rfl, rfl⟩ := Ended.mk.inj (Option.some.inj run)
      obtain rfl := RunResult.panicked.inj result
      exact ⟨0, state, host, next, .refl, stepped, rfl⟩
    | returned | failed =>
      rw [stepped] at run
      cases run

private theorem runBodies_panicked {steps : Nat} {bodies : List CompiledUnit} {memory after : Memory} {host last : σ} {panic : Panic}
    (run : runBodies program natives steps memory host bodies = some ⟨.panicked panic, after, last⟩) :
    ∃ state stateHost unwound, Visits program natives bodies memory host state stateHost ∧
      step program natives state stateHost = .panicked panic unwound last ∧ after.depth = unwound.depth := by
  induction bodies generalizing memory host with
  | nil => cases run
  | cons compiled bodies ih =>
    rw [runBodies] at run
    split at run
    · rename_i next nextHost finished
      obtain ⟨state, stateHost, unwound, visits, panics, left⟩ := ih run
      exact ⟨state, stateHost, unwound, .later finished visits, panics, left⟩
    · by_cases full : maxDepth ≤ memory.depth
      · rw [runBody, if_pos full] at run
        cases run
      · have room : memory.depth < maxDepth := Nat.lt_of_not_le full
        rw [runBody_eq room] at run
        obtain ⟨n, state, stateHost, unwound, reaches, panics, left⟩ := runSteps_panicked run
        exact ⟨state, stateHost, unwound, .here room reaches, panics, left⟩

/-! ## Trying to have calls active -/

variable (program natives) in
/-- A run tries to have a number of calls active at once: one, where it begins a body, or one more than there are, where it comes to
the call of a function. -/
def Memory.Tries (memory : Memory) (host : σ) (calls : Nat) : Prop :=
  (calls = 1 ∧ program.bodies ≠ []) ∨
    ∃ state stateHost, Visits program natives program.bodies memory host state stateHost ∧ state.Enters program ∧
      calls = state.active + 1

variable (program natives) in
/-- A run ends for want of room for a call. -/
def Memory.Overflows (memory : Memory) (host : σ) : Prop :=
  ∃ steps ended site, memory.run program natives steps host = some ended ∧ ended.result = .failed ⟨.stackOverflow, site⟩

/-- A run ends for want of room iff it tries to have more calls active than there is room for. -/
theorem Memory.overflows_iff (memory : Memory) (host : σ) :
    memory.Overflows program natives host ↔ ∃ calls, memory.Tries program natives host calls ∧ maxDepth < memory.depth + calls := by
  constructor
  · rintro ⟨steps, ⟨_, after, last⟩, site, run, rfl⟩
    -- without room for the first body no state is visited
    by_cases full : maxDepth ≤ memory.depth
    · have some : program.bodies ≠ [] := by
        intro none
        rw [Memory.run, none] at run
        cases run
      exact ⟨1, .inl ⟨rfl, some⟩, by omega⟩
    · obtain ⟨state, stateHost, failed, visits, fails⟩ := runBodies_visits (Nat.lt_of_not_le full) run
      have overflows : (step program natives state stateHost).Overflows := by rw [fails]; exact rfl
      obtain ⟨enters, deep⟩ := (step_overflows_iff program natives state stateHost).mp overflows
      have counts : state.depth = memory.depth + state.active := visits.counts
      exact ⟨_, .inr ⟨state, stateHost, visits, enters, rfl⟩, by omega⟩
  · rintro ⟨calls, ⟨rfl, some⟩ | ⟨state, stateHost, visits, enters, rfl⟩, many⟩
    · obtain ⟨compiled, rest, bodies⟩ := List.exists_cons_of_ne_nil some
      refine ⟨0, ⟨.failed ⟨.stackOverflow, none⟩, memory, host⟩, none, ?_, rfl⟩
      rw [Memory.run, bodies, runBodies, runBody, if_pos (by omega)]
    · have counts : state.depth = memory.depth + state.active := visits.counts
      have overflows := (step_overflows_iff program natives state stateHost).mpr ⟨enters, by omega⟩
      cases stepped : step program natives state stateHost with
      | failed error failed failedHost =>
        rw [stepped] at overflows
        obtain ⟨fault, site⟩ := error
        obtain rfl : fault = .stackOverflow := overflows
        obtain ⟨steps, after, run⟩ := visits.run_fails stepped
        exact ⟨steps, _, site, run, rfl⟩
      | running | returned | panicked =>
        rw [stepped] at overflows
        exact overflows.elim

/-! ## Histories -/

/-- A run of a machine in the past: the memory and the host that it began with, and its end. -/
structure Past (σ : Type) where
  memory : Memory
  host : σ
  ended : Ended σ

variable (program natives)

/-- The number of calls that a run has left behind as active: none if it returned or failed, and all that were active if it ended
in a panic. -/
def Past.Leaves (past : Past σ) (calls : Nat) : Prop :=
  (past.ended.Returns ∧ calls = 0) ∨
    ∃ panic state stateHost unwound, past.ended.result = .panicked panic ∧
      Visits program natives program.bodies past.memory past.host state stateHost ∧
      step program natives state stateHost = .panicked panic unwound past.ended.host ∧ calls = unwound.active

/-- The runs that a machine has come through, one after the other, and the memory that the last of them has left. Between two runs
the host may change. -/
inductive Memory.History : List (Past σ) → Memory → Prop
  | new : History [] .initial
  | again {pasts : List (Past σ)} {memory : Memory} (before : History pasts memory) (host : σ) {steps : Nat} {ended : Ended σ}
      (run : memory.run program natives steps host = some ended) : History (pasts ++ [⟨memory, host, ended⟩]) ended.memory

variable {program natives}

theorem Past.exists_leaves {memory : Memory} {host : σ} {steps : Nat} {ended : Ended σ}
    (run : memory.run program natives steps host = some ended) :
    ∃ calls, Past.Leaves program natives ⟨memory, host, ended⟩ calls ∧ ended.memory.depth = memory.depth + calls := by
  obtain ⟨result, after, last⟩ := ended
  cases result with
  | panicked panic =>
    obtain ⟨state, stateHost, unwound, visits, panics, left⟩ := runBodies_panicked run
    have counts := step_counts program natives visits.counts stateHost
    rw [panics] at counts
    exact ⟨unwound.active, .inr ⟨panic, state, stateHost, unwound, rfl, visits, panics, rfl⟩, left.trans counts⟩
  | finished | failed => exact ⟨0, .inl ⟨nofun, rfl⟩, runBodies_depth nofun run⟩

/-- What a machine counts as active between runs is what its runs have left behind. -/
theorem Memory.History.depth {pasts : List (Past σ)} {memory : Memory} (history : History program natives pasts memory) :
    ∃ left, List.Forall₂ (Past.Leaves program natives) pasts left ∧ memory.depth = left.sum := by
  induction history with
  | new => exact ⟨[], .nil, rfl⟩
  | @again pasts memory before host steps ended run ih =>
    obtain ⟨left, leaves, depth⟩ := ih
    obtain ⟨calls, here, more⟩ := Past.exists_leaves run
    refine ⟨left ++ [calls], List.rel_append leaves (.cons here .nil), ?_⟩
    rw [more, depth, List.sum_append, List.sum_singleton]

theorem Past.Leaves.of_returns {past : Past σ} {calls : Nat} (leaves : past.Leaves program natives calls)
    (returns : past.ended.Returns) :
    calls = 0 := by
  rcases leaves with ⟨-, none⟩ | ⟨panic, -, -, -, panicked, -⟩
  · exact none
  · exact absurd panicked (returns panic)

private theorem sum_leaves_of_returns {pasts : List (Past σ)} {left : List Nat}
    (leaves : List.Forall₂ (Past.Leaves program natives) pasts left)
    (returns : ∀ past ∈ pasts, past.ended.Returns) : left.sum = 0 := by
  induction leaves with
  | nil => rfl
  | cons here _ ih =>
    obtain ⟨first, others⟩ := List.forall_mem_cons.mp returns
    rw [List.sum_cons, here.of_returns first, ih others]

variable (program natives) in
/-- Whatever runs a machine has come through, its next run ends for want of room iff it tries to have more calls active than
`maxDepth` less those that the runs have left behind. Only runs that ended in a panic leave any behind: all calls that were active
then. So after runs that returned or failed, at whatever depth, the next one has all of the budget. -/
theorem Memory.History.overflows_iff_over_budget (pasts : List (Past σ)) (memory : Memory)
    (history : History program natives pasts memory) :
    ∃ left, List.Forall₂ (Past.Leaves program natives) pasts left ∧
      (∀ host, memory.Overflows program natives host ↔
        ∃ calls, memory.Tries program natives host calls ∧ maxDepth < left.sum + calls) ∧
      ((∀ past ∈ pasts, past.ended.Returns) →
        ∀ host, memory.Overflows program natives host ↔ ∃ calls, memory.Tries program natives host calls ∧ maxDepth < calls) := by
  obtain ⟨left, leaves, depth⟩ := history.depth
  have overflows : ∀ host, memory.Overflows program natives host ↔
      ∃ calls, memory.Tries program natives host calls ∧ maxDepth < left.sum + calls := by
    intro host
    rw [memory.overflows_iff, depth]
  refine ⟨left, leaves, overflows, fun returns host => ?_⟩
  rw [overflows host, sum_leaves_of_returns leaves returns]
  simp only [Nat.zero_add]

end

end Machine

namespace Simulation

open Machine (Memory Past maxDepth)

/-- Each run of a script whose native panics leaves one call behind. -/
theorem panickingProgram_history {times : Nat} (room : times ≤ maxDepth) :
    ∃ pasts, Memory.History panickingProgram panickingNatives pasts ⟨∅, times⟩ ∧ pasts.length = times ∧
      ∀ past ∈ pasts, past.ended.result = .panicked ⟨some "native crashed"⟩ := by
  induction times with
  | zero => exact ⟨[], .new, rfl, List.forall_mem_nil _⟩
  | succ times ih =>
    obtain ⟨pasts, history, length, panicked⟩ := ih (by omega)
    have run := @panickingProgram_run times (by omega)
    refine ⟨_, history.again () run, ?_, ?_⟩
    · rw [List.length_append, length, List.length_singleton]
    · intro past member
      rcases List.mem_append.mp member with earlier | last
      · exact panicked past earlier
      · rw [List.mem_singleton.mp last]

/-- Two caught panics take two calls from the budget of the next run. -/
theorem panickingProgram_over_budget :
    ∃ pasts, Memory.History panickingProgram panickingNatives pasts ⟨∅, 2⟩ ∧ pasts.length = 2 ∧
      ∃ left, List.Forall₂ (Past.Leaves panickingProgram panickingNatives) pasts left ∧ left.length = 2 ∧
        ∀ host, Memory.Overflows panickingProgram panickingNatives ⟨∅, 2⟩ host ↔
          ∃ calls, Memory.Tries panickingProgram panickingNatives ⟨∅, 2⟩ host calls ∧ maxDepth < left.sum + calls := by
  obtain ⟨pasts, history, length, -⟩ := @panickingProgram_history 2 (by decide)
  obtain ⟨left, leaves, overflows, -⟩ := Memory.History.overflows_iff_over_budget panickingProgram panickingNatives pasts _ history
  exact ⟨pasts, history, length, left, leaves, leaves.length_eq.symm.trans length, overflows⟩

/-- A script that compiles, and a machine in which a native has panicked once for every call that may be active: its next run ends
for want of room, though it never tries to have more than one call active. -/
theorem panics_spend_budget :
    ∃ units env program pasts memory, panickingEnvironment.parseAll [⟨panickingSource, "a.zs", "a", false⟩] = (units, env) ∧
      Compile.program env false units = .ok program ∧ Memory.History program panickingNatives pasts memory ∧
      pasts.length = maxDepth ∧ (∀ past ∈ pasts, past.ended.result = .panicked ⟨some "native crashed"⟩) ∧
      memory.Overflows program panickingNatives () ∧ ∀ calls, memory.Tries program panickingNatives () calls → calls = 1 := by
  obtain ⟨pasts, history, length, panicked⟩ := panickingProgram_history (Nat.le_refl maxDepth)
  refine ⟨_, _, _, pasts, _, panickingSource_parses, panickingUnit_compiles, history, length, panicked, ?_, ?_⟩
  · exact (Memory.overflows_iff _ ()).mpr ⟨1, .inl ⟨rfl, nofun⟩, Nat.lt_succ_self maxDepth⟩
  · -- no state is visited, since there is no room for a body
    rintro calls (⟨one, -⟩ | ⟨state, stateHost, visits, -⟩)
    · exact one
    · cases visits with
      | here room => exact absurd room (Nat.lt_irrefl _)
      | later ended => exact absurd (Machine.runBody_room ended) (Nat.lt_irrefl _)

end Simulation

end Scriptorium
