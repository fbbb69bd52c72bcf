import Scriptorium.Proofs.FaultPlaces
import Scriptorium.Proofs.GroupRuns
import Scriptorium.Proofs.Reruns

/-!
# Places of run errors

A run of a program that fails bears one place: that of the instruction which fails, in the innermost call, and it is the place of
the construct whose evaluation fails (`run_error_names_construct`). The exception is a machine that counts as many calls as active
as there may be, because natives have panicked in it before: it has no room for a body, and fails without a place
(`worn_machine_fails_without_place`).
-/
namespace Scriptorium

namespace Machine

open Bytecode (CompiledUnit)

section
variable {σ : Type} {program : Program} {natives : Natives σ}

/-- A step bears a place if it fails. -/
def Step.FailsAt (site : Site) : Step σ → Prop
  | .failed error _ _ => error.site = some site
  | .running _ _ | .returned _ _ | .panicked _ _ _ => True

private theorem executeReturn_failsAt (site : Site) (state : State) (host : σ) : (executeReturn site state host).FailsAt site := by
  unfold executeReturn
  split
  · exact rfl
  · split <;> trivial

private theorem executeCall_failsAt (site : Site) (name : String) (count : Nat) (state : State) (host : σ) :
    (executeCall program natives site name count state host).FailsAt site := by
  unfold executeCall
  split
  · exact rfl
  simp only
  split
  · split
    · exact rfl
    · split
      · exact rfl
      · trivial
  · split
    · exact rfl
    · split
      · exact rfl
      · split
        · trivial
        · exact rfl
        · trivial

private theorem performed_failsAt (instruction : Bytecode.Instruction) (site : Site) (host : σ) (state : State) :
    (performed program natives instruction site host state).FailsAt site := by
  obtain rfl | ⟨index, count, rfl⟩ | other := performed_cases program natives instruction
  · exact executeReturn_failsAt site state host
  · show (called program natives index count site host state).FailsAt site
    unfold called
    split
    · exact rfl
    · exact executeCall_failsAt site _ _ _ host
  · rw [other site host]
    unfold executed
    split
    · trivial
    · exact rfl

variable (program natives) in
/-- A step that fails does so at the instruction that the running call is at. -/
theorem step_failsAt (state : State) (host : σ) : (step program natives state host).FailsAt state.frame.site := by
  rw [step_eq]
  split
  · exact rfl
  · exact performed_failsAt _ _ host _

/-- A run that fails comes to a step that fails. -/
theorem runSteps_failed {depth steps : Nat} {state : State} {host last : σ} {error : RunError} {after : Memory}
    (run : runSteps program natives depth steps state host = some ⟨.failed error, after, last⟩) :
    ∃ n mid midHost failed, Reaches program natives n state host mid midHost ∧
      step program natives mid midHost = .failed error failed last := by
  induction steps generalizing state host with
  | zero => cases run
  | succ steps ih =>
    rw [runSteps] at run
    cases stepped : step program natives state host with
    | running next nextHost =>
      rw [stepped] at run
      obtain ⟨n, mid, midHost, failed, reaches, fails⟩ := ih run
      exact ⟨_, mid, midHost, failed, (Reaches.one stepped).trans reaches, fails⟩
    | failed found next nextHost =>
      rw [stepped] at run
      obtain ⟨result, -, rfl⟩ := Ended.mk.inj (Option.some.inj run)
      obtain rfl := RunResult.failed.inj result
      exact ⟨0, state, host, next, .refl, stepped⟩
    | returned next nextHost | panicked panic next nextHost =>
      rw [stepped] at run
      cases run

/-- Bodies that fail, with room for one more call, come to a step that fails. -/
theorem runBodies_visits {steps : Nat} {bodies : List CompiledUnit} {memory after : Memory} {host last : σ} {error : RunError}
    (room : memory.depth < maxDepth) (run : runBodies program natives steps memory host bodies = some ⟨.failed error, after, last⟩) :
    ∃ state stateHost failed, Visits program natives bodies memory host state stateHost ∧
      step program natives state stateHost = .failed error failed last := by
  induction bodies generalizing memory host with
  | nil => cases run
  | cons compiled bodies ih =>
    rw [runBodies] at run
    split at run
    · rename_i next nextHost finished
      have same : next.depth = memory.depth := runBody_depth (Ended.returns_of_finished next nextHost) finished
      obtain ⟨state, stateHost, failed, visits, fails⟩ := ih (same ▸ room) run
      exact ⟨state, stateHost, failed, .later finished visits, fails⟩
    · rw [runBody_eq room] at run
      obtain ⟨n, state, stateHost, failed, reaches, fails⟩ := runSteps_failed run
      exact ⟨state, stateHost, failed, .here room reaches, fails⟩

/-- Where as many calls count as active as there may be, there is no room for a body. -/
theorem runBodies_full {steps : Nat} {bodies : List CompiledUnit} {memory after : Memory} {host last : σ} {error : RunError}
    (full : maxDepth ≤ memory.depth) (run : runBodies program natives steps memory host bodies = some ⟨.failed error, after, last⟩) :
    error = ⟨.stackOverflow, none⟩ := by
  cases bodies with
  | nil => cases run
  | cons compiled bodies =>
    rw [runBodies, runBody, if_pos full] at run
    obtain ⟨result, -, -⟩ := Ended.mk.inj (Option.some.inj run)
    exact (RunResult.failed.inj result).symm

end

end Machine

namespace Simulation

open Machine (Ended Memory Visits maxDepth step)
open Script (BracketHandler Environment Input ParsedUnit)

/-- A run of a compiled group that fails bears one place. It is that of the call which fails, innermost, and names the unit in which
a construct stands that can come to the fault, with the line of the construct where the program keeps its lines; and evaluation
stops at that construct. This holds whatever memory the machine begins with, as long as there is room for a call. -/
theorem run_error_names_construct {σ : Type} (natives : Natives σ) (group : String) (brackets : List BracketHandler)
    (inputs : List Input) (units : List ParsedUnit) (env : Environment) (debug : Bool) (artifacts : ArtifactSet)
    (parsed : (Environment.initial group natives.signatures brackets).parseAll inputs = (units, env))
    (compiles : (Compile.compileGroup env debug units artifacts).result = .ok ()) :
    ∃ program, Compile.program env debug units = .ok program ∧
      Compile.compileGroup env debug units artifacts = ⟨.ok (), Compile.emitted artifacts units program⟩ ∧
      ∀ (memory : Memory) (host : σ) (steps : Nat) (ended : Ended σ) (error : Machine.RunError),
        memory.run program natives steps host = some ended → ended.result = .failed error →
          (memory.depth < maxDepth → ∃ unit ∈ units, ∃ o ∈ unit.occurrences,
            error.site = some ⟨unit.name, if debug then some o.construct.line else none⟩ ∧ o.construct.Raises error.fault ∧
            (∃ world, Evaluation.groupWithin units natives steps memory.depth ⟨memory.globals, host⟩ =
              .error (.fault error.fault unit.name o.construct.line) world) ∧
            ∃ state stateHost failed, Visits program natives program.bodies memory host state stateHost ∧
              step program natives state stateHost = .failed error failed ended.host ∧ state.frame.unit = unit.name ∧
              error.site = some state.frame.site) ∧
          (maxDepth ≤ memory.depth → error = ⟨.stackOverflow, none⟩) := by
  obtain ⟨program, compiled⟩ := Compile.compileGroup_result.mp compiles
  have declares := Environment.parseAll_declares parsed
  refine ⟨program, compiled, Compile.compileGroup_ok compiled, fun memory host steps ended error run failed => ⟨fun room => ?_, ?_⟩⟩
  · obtain ⟨result, after, last⟩ := ended
    obtain rfl := failed
    obtain ⟨state, stateHost, failed, visits, fails⟩ := Machine.runBodies_visits room run
    have placed : error.site = some state.frame.site := by
      have at_frame := Machine.step_failsAt program natives state stateHost
      rwa [fails] at at_frame
    have answers : Answers ⟨program, natives, env, debug⟩ steps memory.depth
        (fun steps => memory.run program natives steps host)
        (Evaluation.groupWithin units natives steps memory.depth ⟨memory.globals, host⟩) :=
      program_answers declares compiled room ⟨memory.globals, host⟩
    have same := answers.ofRun (Nat.le_refl steps) run
    cases evaluated : Evaluation.groupWithin units natives steps memory.depth ⟨memory.globals, host⟩ with
    | ok _ world =>
      rw [evaluated] at same
      cases same
    | error stop world =>
      rw [evaluated] at same
      cases stop with
      | fault fault name line =>
        obtain ⟨-, ended⟩ := same
        obtain ⟨result, -, -⟩ := Ended.mk.inj ended
        obtain rfl := Machine.RunResult.failed.inj result
        obtain ⟨construct, ⟨unit, inside, rfl, o, here, rfl⟩, rfl, raises⟩ :=
          Evaluation.groupWithin_places steps memory.depth _ _ _ _ _ evaluated
        have framed := congrArg Machine.Site.unit (Option.some.inj placed)
        exact ⟨unit, inside, o, here, rfl, raises, ⟨world, rfl⟩, state, stateHost, failed, visits, fails, framed.symm, placed⟩
      | panicked panic => cases same.1
      | unfinished => exact same.elim
  · obtain ⟨result, after, last⟩ := ended
    obtain rfl := failed
    exact fun full => Machine.runBodies_full full run

/-- A unit with a function that fails, and a unit that calls it. -/
def failingSources : List Input :=
  [⟨"function minus(x) \x7b return x -\nx; \x7d", "a.zs", "a", false⟩, ⟨"\nminus(null);", "b.zs", "b", false⟩]

/-- The syntax trees of the units. -/
def failingUnits : List ParsedUnit :=
  [⟨"a.zs", "a", [], [⟨"minus", ["x"], [.giveBack (some (.binary .subtract (.name "x" 1) (.name "x" 2) 1)) 1], 1⟩], []⟩,
   ⟨"b.zs", "b", [], [], [.expr (.call "minus" [.null] 2)]⟩]

/-- What is known of the units. -/
def failingEnvironment : Environment :=
  { Environment.initial "group" [] [] with functions := [("minus", ⟨1, "a.zs"⟩)] }

private theorem failingSources_tokens : failingSources.map (fun input => Script.TokenStream.ofSource input.source) =
    [⟨[⟨.keyword .functionWord, 1⟩, ⟨.name "minus", 1⟩, ⟨.symbol .leftParen, 1⟩, ⟨.name "x", 1⟩, ⟨.symbol .rightParen, 1⟩,
      ⟨.symbol .leftBrace, 1⟩, ⟨.keyword .returnWord, 1⟩, ⟨.name "x", 1⟩, ⟨.symbol .minus, 1⟩, ⟨.name "x", 2⟩,
      ⟨.symbol .semicolon, 2⟩, ⟨.symbol .rightBrace, 2⟩], .finish 2⟩,
     ⟨[⟨.name "minus", 2⟩, ⟨.symbol .leftParen, 2⟩, ⟨.keyword .nullWord, 2⟩, ⟨.symbol .rightParen, 2⟩, ⟨.symbol .semicolon, 2⟩], .finish 2⟩] := by
  decide +kernel

private theorem failingSources_parse :
    (Environment.initial "group" [] []).parseAll failingSources = (failingUnits, failingEnvironment) := by
  have tokens := failingSources_tokens
  simp only [failingSources, List.map_cons, List.map_nil, List.cons.injEq] at tokens
  simp only [failingSources, Environment.parseAll, Environment.parse, tokens.1, tokens.2.1]
  cbv

/-- What the function compiles to. -/
def failingFunction : Bytecode.Function := ⟨"minus", 1, Bytecode.Segment.toChunk
  [⟨1, .getLocal 0⟩, ⟨2, .getLocal 0⟩, ⟨1, .binary .subtract⟩, ⟨1, .giveBack⟩, ⟨1, .pushNull⟩, ⟨1, .giveBack⟩] #[] true⟩

/-- The program of the units. -/
def failingProgram : Machine.Program where
  entry := ⟨"group", true, ["a", "b"]⟩
  initials := []
  units := [⟨"a.zs", Bytecode.Segment.toChunk [⟨1, .pushNull⟩, ⟨1, .giveBack⟩] #[] true, [failingFunction]⟩,
    ⟨"b.zs", Bytecode.Segment.toChunk [⟨2, .pushNull⟩, ⟨2, .call 0 1⟩, ⟨2, .pop⟩, ⟨2, .pushNull⟩, ⟨2, .giveBack⟩] #[.text "minus"] true,
      []⟩]
  functions := (∅ : Std.HashMap String Machine.LinkedFunction).insert "minus" ⟨"a.zs", failingFunction⟩

private theorem failingUnits_compile : Compile.program failingEnvironment true failingUnits = .ok failingProgram := by cbv

private theorem failingProgram_run : (Memory.initial.run failingProgram (Natives.empty (σ := Unit)) 20 ()).map Ended.result =
    some (.failed ⟨.operator (.mismatch .subtract .null .null), some ⟨"a.zs", some 1⟩⟩) := by
  cbv

/-- The run fails in the function, at the line of the operator and not at that of its second operand. -/
theorem failingSources_name_construct :
    ∃ ended error, Memory.initial.run failingProgram Natives.empty 20 () = some ended ∧ ended.result = .failed error ∧
      error = ⟨.operator (.mismatch .subtract .null .null), some ⟨"a.zs", some 1⟩⟩ ∧
      ∃ unit ∈ failingUnits, ∃ o ∈ unit.occurrences, error.site = some ⟨unit.name, some o.construct.line⟩ ∧
        o.construct.Raises error.fault := by
  obtain ⟨program, compiled, -, places⟩ := run_error_names_construct (σ := Unit) Natives.empty "group" [] failingSources failingUnits
    failingEnvironment true ∅ failingSources_parse (Compile.compileGroup_result.mpr ⟨_, failingUnits_compile⟩)
  obtain rfl := Except.ok.inj (failingUnits_compile.symm.trans compiled)
  obtain ⟨ended, run, failed⟩ := Option.map_eq_some_iff.mp failingProgram_run
  obtain ⟨unit, inside, o, here, site, raises, -⟩ := (places Memory.initial () 20 ended _ run failed).1 (by decide)
  exact ⟨ended, _, run, failed, rfl, unit, inside, o, here, site, raises⟩

/-- A native that panics. -/
def panickingNatives : Natives Unit := ⟨[("panic_str", ⟨some 0, fun _ host => (.panicked ⟨some "native crashed"⟩, host)⟩)]⟩

/-- A script that calls it. -/
def panickingSource : String := "panic_str();"

/-- The syntax tree of the script. -/
def panickingUnit : ParsedUnit := ⟨"a.zs", "a", [], [], [.expr (.call "panic_str" [] 1)]⟩

/-- The environment of the script. -/
def panickingEnvironment : Environment := Environment.initial "group" panickingNatives.signatures []

/-- What the script compiles to. -/
def panickingBody : Bytecode.CompiledUnit :=
  ⟨"a.zs", Bytecode.Segment.toChunk [⟨1, .call 0 0⟩, ⟨1, .pop⟩, ⟨1, .pushNull⟩, ⟨1, .giveBack⟩] #[.text "panic_str"] false, []⟩

/-- The program of the script. -/
def panickingProgram : Machine.Program := ⟨⟨"group", false, ["a"]⟩, [], [panickingBody], ∅⟩

private theorem panickingSource_tokens : Script.TokenStream.ofSource panickingSource =
    ⟨[⟨.name "panic_str", 1⟩, ⟨.symbol .leftParen, 1⟩, ⟨.symbol .rightParen, 1⟩, ⟨.symbol .semicolon, 1⟩], .finish 1⟩ := by
  decide +kernel

theorem panickingSource_parses : panickingEnvironment.parseAll [⟨panickingSource, "a.zs", "a", false⟩] =
    ([panickingUnit], panickingEnvironment) := by
  simp only [Environment.parseAll, Environment.parse, panickingSource_tokens]
  cbv

theorem panickingUnit_compiles : Compile.program panickingEnvironment false [panickingUnit] = .ok panickingProgram := by cbv

/-- A panic leaves one more call behind that counts as active. -/
theorem panickingProgram_run {depth : Nat} (room : depth < maxDepth) :
    Memory.run panickingProgram panickingNatives 1 ⟨∅, depth⟩ () =
      some ⟨.panicked ⟨some "native crashed"⟩, ⟨∅, depth + 1⟩, ()⟩ := by
  have body : Machine.runBody panickingProgram panickingNatives 1 panickingBody ⟨∅, depth⟩ () =
      some ⟨.panicked ⟨some "native crashed"⟩, ⟨∅, depth + 1⟩, ()⟩ := by
    rw [Machine.runBody_eq room]
    cbv
  show Machine.runBodies panickingProgram panickingNatives 1 ⟨∅, depth⟩ () [panickingBody] = _
  rw [Machine.runBodies, body]

/-- A machine has room for fewer calls after each panic, and in the end for none. -/
theorem panickingProgram_wears {times depth : Nat} (left : depth + times = maxDepth) :
    ∃ accounts last, Memory.runs panickingProgram panickingNatives 1 (times + 1) ⟨∅, depth⟩ () = some (accounts ++ [last]) ∧
      (∀ account ∈ accounts, account.ended.result = .panicked ⟨some "native crashed"⟩) ∧
      last.ended.result = .failed ⟨.stackOverflow, none⟩ := by
  induction times generalizing depth with
  | zero =>
    obtain rfl : depth = maxDepth := left
    exact ⟨[], _, rfl, List.forall_mem_nil _, rfl⟩
  | succ times ih =>
    obtain ⟨accounts, last, runs, panicked, worn⟩ := @ih (depth + 1) (by omega)
    have room : depth < maxDepth := by omega
    have here := panickingProgram_run room
    let first : Machine.Account Unit := ⟨Memory.calls panickingProgram panickingNatives 1 ⟨∅, depth⟩ (),
      ⟨.panicked ⟨some "native crashed"⟩, ⟨∅, depth + 1⟩, ()⟩⟩
    refine ⟨first :: accounts, last, ?_, List.forall_mem_cons.mpr ⟨rfl, panicked⟩, worn⟩
    rw [Memory.runs, here]
    simp only [runs, Option.map_some, List.cons_append, first]

/-- A script that compiles, and a machine in which a native has panicked once for every call that may be active: its next run fails
without a place. -/
theorem worn_machine_fails_without_place :
    ∃ units env program accounts last, panickingEnvironment.parseAll [⟨panickingSource, "a.zs", "a", false⟩] = (units, env) ∧
      Compile.program env false units = .ok program ∧
      Memory.initial.runs program panickingNatives 1 (maxDepth + 1) () = some (accounts ++ [last]) ∧
      (∀ account ∈ accounts, account.ended.result = .panicked ⟨some "native crashed"⟩) ∧
      last.ended.result = .failed ⟨.stackOverflow, none⟩ := by
  obtain ⟨accounts, last, runs, panicked, worn⟩ := panickingProgram_wears (Nat.zero_add maxDepth)
  exact ⟨_, _, _, accounts, last, panickingSource_parses, panickingUnit_compiles, runs, panicked, worn⟩

end Simulation

end Scriptorium
