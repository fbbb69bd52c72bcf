import Scriptorium.Proofs.GroupRuns

/-!
# Safety

Compiled code fails only where the language says so: no step of a machine that runs a program comes upon a
broken instruction, an operand that means nothing, an empty stack, or a call that cannot be made; and once
all initial values have been computed, no global is missing.
-/
namespace Scriptorium.Simulation

open Bytecode (CompiledUnit)
open Compile (except_bind_eq_ok)
open Evaluation (World)
open Machine (Ended Keeps Memory Program RunError State Visits runBodies runBody step)
open Script (BracketHandler Environment GlobalDecl Input ParsedUnit)
open Std (HashMap)

section
variable {σ : Type} {setting : Setting σ} {units : List ParsedUnit} {env : Environment} {debug : Bool} {made : Program}
  {natives : Natives σ}

/-- A body that fails in its code fails as an evaluation does. -/
theorem Answers.expected {depth : Nat} {run : Nat → Option (Ended σ)} {steps : Nat} {error : RunError}
    {after : Memory} {host : σ} {result : EStateM.Result Evaluation.Stop (World σ) Unit}
    (answers : Answers setting steps depth run result) (failed : run steps = some ⟨.failed error, after, host⟩) :
    Expected setting.env error.fault := by
  have same := answers.ofRun (Nat.le_refl steps) failed
  cases result with
  | ok _ world => cases same
  | error stop world =>
    cases stop with
    | fault fault unit line =>
      obtain ⟨expected, ended⟩ := same
      obtain ⟨failed, -, -⟩ := Ended.mk.inj ended
      obtain rfl := Machine.RunResult.failed.inj failed
      exact expected
    | panicked panic => cases same.1
    | unfinished => exact same.elim

/-- Every body of a program comes from a unit. -/
theorem bodies_expected (declares : Environment.Declares units natives.signatures env)
    (compiled : Compile.program env debug units = .ok made) {body : CompiledUnit} (member : body ∈ made.bodies)
    {steps : Nat} {before after : Memory} {host nextHost : σ} {error : RunError} (room : before.depth < Machine.maxDepth)
    (failed : runBody made natives steps body before host = some ⟨.failed error, after, nextHost⟩) :
    Expected env error.fault := by
  have linked := program_linked declares compiled
  obtain ⟨initials, first, rest⟩ := except_bind_eq_ok.mp compiled
  obtain ⟨stored, second, same⟩ := except_bind_eq_ok.mp rest
  obtain ⟨_, -, third⟩ := except_bind_eq_ok.mp first
  cases same
  let world : World σ := ⟨before.globals, host⟩
  obtain initial | unit := List.mem_append.mp member
  · obtain ⟨parsed, -, compiledInitials⟩ := Compile.mapM_mem third initial
    have answers := giveInitials_answers linked steps world room compiledInitials
    exact answers.expected failed
  · obtain ⟨parsed, -, compiledUnit⟩ := Compile.mapM_mem second unit
    have answers := runUnit_answers linked steps world room compiledUnit
    exact answers.expected failed

/-- When initial values have been computed, the globals are there that they are for. -/
theorem runBodies_define (linked : Linked units setting) {declaring : List ParsedUnit} {bodies : List CompiledUnit}
    (all : List.Forall₂ (fun parsed body => Compile.initialValues setting.env setting.debug parsed = .ok body)
      declaring bodies) {steps : Nat} {before next : Memory} {host nextHost : σ}
    (run : runBodies setting.program setting.natives steps before host bodies = some ⟨.finished, next, nextHost⟩) :
    Keeps before.globals next.globals ∧ ∀ parsed ∈ declaring, ∀ decl ∈ parsed.globals, decl.name ∈ next.globals := by
  induction all generalizing before host with
  | nil =>
    obtain ⟨-, rfl, -⟩ := Ended.mk.inj (Option.some.inj run)
    exact ⟨Keeps.refl _, fun _ => nofun⟩
  | @cons parsed body declaring bodies made _ ih =>
    rw [runBodies] at run
    split at run
    · rename_i mid midHost ended
      obtain ⟨kept, defined⟩ := ih run
      let world : World σ := ⟨before.globals, host⟩
      have here := giveInitials_defines linked world (Machine.runBody_room ended) made ended
      refine ⟨(Machine.runBody_keeps ended).trans kept, fun other member decl declared => ?_⟩
      obtain rfl | later := List.mem_cons.mp member
      · exact kept _ (here.2 decl declared)
      · exact defined other later decl declared
    · rename_i other
      exact absurd run (other next nextHost)

/-- When all initial values have been computed, every global of the units is there. -/
theorem initials_define (declares : Environment.Declares units natives.signatures env)
    (compiled : Compile.program env debug units = .ok made) {steps : Nat} {before next : Memory} {host nextHost : σ}
    (run : runBodies made natives steps before host made.initials = some ⟨.finished, next, nextHost⟩) :
    ∀ parsed ∈ units, ∀ decl ∈ parsed.globals, decl.name ∈ next.globals := by
  have linked := program_linked declares compiled
  obtain ⟨initials, first, rest⟩ := except_bind_eq_ok.mp compiled
  obtain ⟨stored, -, same⟩ := except_bind_eq_ok.mp rest
  obtain ⟨_, -, third⟩ := except_bind_eq_ok.mp first
  cases same
  obtain ⟨-, defined⟩ := runBodies_define linked (Compile.mapM_eq_ok third) run
  intro parsed member decl declared
  have some : (!parsed.globals.isEmpty) = true := by
    cases globals : parsed.globals with
    | nil => rw [globals] at declared; cases declared
    | cons => rfl
  exact defined parsed (List.mem_filter.mpr ⟨member, some⟩) decl declared

/-- The globals that the environment knows are those of the units. -/
theorem hasGlobal_mem (declares : Environment.Declares units natives.signatures env) {name : String}
    (declared : env.hasGlobal name = true) : ∃ parsed ∈ units, ∃ decl ∈ parsed.globals, decl.name = name := by
  rw [Environment.hasGlobal, declares.globals, List.lookup_isSome_iff] at declared
  obtain ⟨found, member, same⟩ := declared
  obtain ⟨parsed, here, inside⟩ := List.mem_flatMap.mp (List.mem_reverse.mp member)
  obtain ⟨decl, declared, rfl⟩ := List.mem_map.mp inside
  exact ⟨parsed, here, decl, declared, (beq_iff_eq.mp same).symm⟩

end

/-- A program runs safely: a step that fails, in whatever state a machine visits, fails at a value, at a
refusal, at too many active calls, or at a global that is not there yet; and after the initial values all
globals are there. It does not matter what memory the machine begins with, and whether the run ends. -/
theorem compiled_program_is_safe {σ : Type} (natives : Natives σ) (group : String) (brackets : List BracketHandler)
    (inputs : List Input) (units : List ParsedUnit) (env : Environment) (debug : Bool) (artifacts : ArtifactSet)
    (parsed : (Environment.initial group natives.signatures brackets).parseAll inputs = (units, env))
    (compiles : (Compile.compileGroup env debug units artifacts).result = .ok ()) :
    ∃ program, Compile.program env debug units = .ok program ∧
      Compile.compileGroup env debug units artifacts = ⟨.ok (), Compile.emitted artifacts units program⟩ ∧
      ∀ (memory : Memory) (host : σ),
      (∀ state stateHost error failed failedHost, Visits program natives program.bodies memory host state stateHost →
        step program natives state stateHost = .failed error failed failedHost →
          Expected env error.fault ∧ ∀ name, error.fault = .undefinedGlobal name → name ∉ state.globals) ∧
      (∀ steps next nextHost, runBodies program natives steps memory host program.initials = some ⟨.finished, next, nextHost⟩ →
        ∀ state stateHost error failed failedHost, Visits program natives program.units next nextHost state stateHost →
          step program natives state stateHost = .failed error failed failedHost →
            ∀ name, error.fault ≠ .undefinedGlobal name) ∧
      (∀ steps ended error, memory.run program natives steps host = some ended → ended.result = .failed error →
        Expected env error.fault) := by
  obtain ⟨program, compiled⟩ := Compile.compileGroup_result.mp compiles
  have declares := Environment.parseAll_declares parsed
  have missing : ∀ state (stateHost : σ) error failed failedHost,
      step program natives state stateHost = .failed error failed failedHost →
        ∀ name, error.fault = .undefinedGlobal name → name ∉ state.globals := by
    intro state stateHost error failed failedHost fails name undefined
    obtain ⟨fault, site⟩ := error
    obtain rfl := undefined
    have tame := (Machine.step_tame program natives state stateHost).2
    exact tame name _ failed failedHost fails
  refine ⟨program, compiled, Compile.compileGroup_ok compiled, fun memory host => ⟨?_, ?_, ?_⟩⟩
  · intro state stateHost error failed failedHost visits fails
    obtain ⟨body, member, steps, before, beforeHost, after, room, run⟩ := visits.runBody_failed fails
    exact ⟨bodies_expected declares compiled member room run, missing state stateHost error failed failedHost fails⟩
  · intro steps next nextHost finished state stateHost error failed failedHost visits fails name undefined
    obtain ⟨body, member, steps, before, beforeHost, after, room, run⟩ := visits.runBody_failed fails
    have expected := bodies_expected declares compiled (List.mem_append_right _ member) room run
    rw [undefined] at expected
    cases expected with
    | undefinedGlobal declared =>
      obtain ⟨unit, declaring, decl, inside, rfl⟩ := hasGlobal_mem declares declared
      have defined := initials_define declares compiled finished unit declaring decl inside
      exact missing state stateHost error failed failedHost fails decl.name undefined (visits.keeps decl.name defined)
  · intro steps ended error run failed
    obtain ⟨result, after, last⟩ := ended
    obtain rfl := failed
    obtain ⟨body, member, before, beforeHost, bodyRun⟩ := Machine.runBodies_failed run
    by_cases room : before.depth < Machine.maxDepth
    · exact bodies_expected declares compiled member room bodyRun
    · have full := bodyRun
      rw [runBody, if_pos (Nat.le_of_not_lt room)] at full
      obtain ⟨overflow, -, -⟩ := Ended.mk.inj (Option.some.inj full)
      obtain rfl := Machine.RunResult.failed.inj overflow
      exact .stackOverflow

/-- The sample script runs safely. -/
theorem sampleSource_is_safe :
    let env := (Environment.initial "group" sampleNatives.signatures []).declareUnit sampleUnit
    ∃ program, Compile.program env true [sampleUnit] = .ok program ∧
      Compile.compileGroup env true [sampleUnit] ∅ = ⟨.ok (), Compile.emitted ∅ [sampleUnit] program⟩ ∧
      ∀ (memory : Memory) (host : List Value),
      (∀ state stateHost error failed failedHost,
        Visits program sampleNatives program.bodies memory host state stateHost →
          step program sampleNatives state stateHost = .failed error failed failedHost →
            Expected env error.fault ∧ ∀ name, error.fault = .undefinedGlobal name → name ∉ state.globals) ∧
      (∀ steps next nextHost,
        runBodies program sampleNatives steps memory host program.initials = some ⟨.finished, next, nextHost⟩ →
          ∀ state stateHost error failed failedHost,
            Visits program sampleNatives program.units next nextHost state stateHost →
              step program sampleNatives state stateHost = .failed error failed failedHost →
                ∀ name, error.fault ≠ .undefinedGlobal name) ∧
      (∀ steps ended error, memory.run program sampleNatives steps host = some ended → ended.result = .failed error →
        Expected env error.fault) :=
  compiled_program_is_safe sampleNatives "group" [] [⟨sampleSource, "main", "main", false⟩] _ _ true ∅
    sampleSource_parses sampleUnit_compiles

end Scriptorium.Simulation
