import Scriptorium.Proofs.Emission
import Scriptorium.Proofs.UnitRuns

/-!
# Runs of groups

A machine that runs the program of a group does what the rules of the language say of the syntax trees: all
initial values are computed, unit by unit, and then the units run. It ends when the evaluation ends, and
then in the same way.
-/
namespace Scriptorium.Simulation

open Bytecode (CompiledUnit)
open Compile (CompileError except_bind_eq_ok)
open Evaluation (Acting Ending Ends World)
open Machine (Ended Memory Program runBodies)
open Script (BracketHandler Environment Input ParsedUnit)

section
variable {σ : Type} {setting : Setting σ} {units : List ParsedUnit} {env : Environment} {debug : Bool} {made : Program}

private theorem signatures_lookup (natives : Natives σ) (name : String) :
    natives.signatures.lookup name = (natives.get? name).map Native.arity := by
  obtain ⟨entries⟩ := natives
  simp only [Natives.signatures, Natives.get?]
  induction entries with
  | nil => rfl
  | cons first entries ih =>
    simp only [List.map_cons, List.lookup]
    cases name == first.1 with
    | true => rfl
    | false => exact ih

/-- The program of a group has its functions. -/
theorem program_linked {natives : Natives σ} (declares : Environment.Declares units natives.signatures env)
    (compiled : Compile.program env debug units = .ok made) : Linked units ⟨made, natives, env, debug⟩ := by
  obtain ⟨initials, -, rest⟩ := except_bind_eq_ok.mp compiled
  obtain ⟨stored, second, same⟩ := except_bind_eq_ok.mp rest
  cases same
  refine ⟨fun name => ?_, fun name owner decl found => ?_, fun name absent => ?_, fun name => ?_⟩
  · rw [declares.functions name, Option.map_map]
    rfl
  · obtain ⟨none, -⟩ | ⟨target, linked, here, has, unit, function⟩ := Compile.linkFunctions_compiles second name
    · rw [found] at none
      cases none
    · rw [found] at here
      obtain rfl := Option.some.inj here
      obtain ⟨target, compiledFunction⟩ := linked
      cases unit
      exact ⟨compiledFunction, has, function⟩
  · obtain ⟨-, none⟩ | ⟨target, linked, here, -⟩ := Compile.linkFunctions_compiles second name
    · exact none
    · rw [absent] at here
      cases here
  · show env.natives.lookup name = _
    rw [declares.natives]
    exact signatures_lookup natives name

variable {time : Nat} {memory : Memory} {host : σ}

/-- Evaluations one after the other are answered by the runs of their bodies. -/
theorem runBodies_answers {act : ParsedUnit → Acting σ Unit} {bodies : List CompiledUnit} {depth : Nat}
    (each : List.Forall₂ (fun parsed compiled => ∀ (world : World σ), Answers setting time depth
      (fun steps => Machine.runBody setting.program setting.natives steps compiled ⟨world.globals, depth⟩ world.host)
      (act parsed world)) units bodies) (world : World σ) :
    Answers setting time depth
      (fun steps => runBodies setting.program setting.natives steps ⟨world.globals, depth⟩ world.host bodies)
      (units.forM act world) := by
  induction each generalizing world with
  | nil => exact .inl ⟨_, 0, rfl, fun _ _ => rfl, fun _ => .inr rfl⟩
  | @cons parsed compiled units bodies first _ ih =>
    refine Answers.bind (fun steps memory host => runBodies setting.program setting.natives steps memory host bodies)
      (first world) ih (fun steps => ?_)
    cases ran : Machine.runBody setting.program setting.natives steps compiled ⟨world.globals, depth⟩ world.host with
    | none => simp only [runBodies, ran]
    | some ended =>
      obtain ⟨_ | _ | _, memory, host⟩ := ended
      · simp only [runBodies, ran]
      · simp only [runBodies, ran]
      · simp only [runBodies, ran]

/-- What does nothing may be left out. -/
theorem forM_filter {act : ParsedUnit → Acting σ Unit} {keep : ParsedUnit → Bool}
    (skips : ∀ parsed, keep parsed = false → act parsed = pure ()) (units : List ParsedUnit) :
    units.forM act = (units.filter keep).forM act := by
  induction units with
  | nil => rfl
  | cons parsed units ih =>
    cases kept : keep parsed with
    | true =>
      rw [List.filter_cons_of_pos kept]
      show (act parsed >>= fun _ => units.forM act) = (act parsed >>= fun _ => (units.filter keep).forM act)
      rw [ih]
    | false =>
      rw [List.filter_cons_of_neg (by simp [kept])]
      show (act parsed >>= fun _ => units.forM act) = _
      rw [skips parsed kept, ih]
      rfl

/-- A machine answers what a group evaluates to, whatever globals it keeps from before and however many calls
it still counts as active, as long as there is room for one more. -/
theorem program_answers {natives : Natives σ} (declares : Environment.Declares units natives.signatures env)
    (compiled : Compile.program env debug units = .ok made) {depth : Nat} (room : depth < Machine.maxDepth)
    (world : World σ) :
    Answers ⟨made, natives, env, debug⟩ time depth
      (fun steps => Memory.run made natives steps ⟨world.globals, depth⟩ world.host)
      ((do
        units.forM (Evaluation.giveInitials units natives time (depth + 1))
        units.forM (Evaluation.runUnit units natives time (depth + 1))) world) := by
  have linked := program_linked declares compiled
  obtain ⟨initials, first, rest⟩ := except_bind_eq_ok.mp compiled
  obtain ⟨stored, second, same⟩ := except_bind_eq_ok.mp rest
  obtain ⟨_, -, third⟩ := except_bind_eq_ok.mp first
  cases same
  have skips : ∀ parsed : ParsedUnit, (!parsed.globals.isEmpty) = false →
      Evaluation.giveInitials units natives time (depth + 1) parsed = pure () := by
    intro parsed empty
    have none : parsed.globals = [] := by simpa using empty
    rw [Evaluation.giveInitials, none]
    rfl
  have initialBodies := Compile.mapM_eq_ok third
  have unitBodies := Compile.mapM_eq_ok second
  rw [forM_filter skips]
  refine Answers.bind (fun steps memory host => runBodies _ natives steps memory host stored)
    (runBodies_answers (initialBodies.imp ?_) world) (fun world => runBodies_answers (unitBodies.imp ?_) world)
    (fun steps => runBodies_append)
  · intro parsed compiled made world
    exact giveInitials_answers linked _ _ room made
  · intro parsed compiled made world
    exact runUnit_answers linked _ _ room made

end

/-- What an end of a run shows: the place of a fault and the number of active calls left out. -/
def endingOf {σ : Type} (ended : Ended σ) : Ending σ where
  result :=
    match ended.result with
    | .finished => .finished
    | .failed error => .failed error.fault
    | .panicked panic => .panicked panic
  globals := ended.memory.globals
  host := ended.host

theorem Matches.ending {σ : Type} {setting : Setting σ} {depth : Nat}
    {result : EStateM.Result Evaluation.Stop (World σ) Unit} {ended : Ended σ}
    (same : Matches setting depth result ended) : Evaluation.ending? result = some (endingOf ended) := by
  cases result with
  | ok _ world =>
    obtain rfl := same
    rfl
  | error stop world =>
    cases stop with
    | fault fault unit line =>
      obtain ⟨-, rfl⟩ := same
      rfl
    | panicked panic =>
      obtain ⟨result, globals, host⟩ := same
      simp only [endingOf, result, globals, host]
      rfl
    | unfinished => exact same.elim

/-- Running a program and evaluating the syntax trees of its group is the same: the machine ends when the
evaluation ends, with the same result, the same globals, and the same state of the host. -/
theorem run_iff_ends {σ : Type} (natives : Natives σ) (group : String) (brackets : List BracketHandler)
    (inputs : List Input) (units : List ParsedUnit) (env : Environment) (debug : Bool) (artifacts : ArtifactSet)
    (parsed : (Environment.initial group natives.signatures brackets).parseAll inputs = (units, env))
    (compiles : (Compile.compileGroup env debug units artifacts).result = .ok ()) :
    ∃ program, Compile.program env debug units = .ok program ∧
      Compile.compileGroup env debug units artifacts = ⟨.ok (), Compile.emitted artifacts units program⟩ ∧
      ∀ (host : σ) (ending : Ending σ),
        (∃ steps ended, Memory.initial.run program natives steps host = some ended ∧ endingOf ended = ending) ↔
          Ends units natives host ending := by
  obtain ⟨program, compiled⟩ := Compile.compileGroup_result.mp compiles
  have declares := Environment.parseAll_declares parsed
  refine ⟨program, compiled, Compile.compileGroup_ok compiled, fun host ending => ?_⟩
  have answers : ∀ time, Answers ⟨program, natives, env, debug⟩ time 0
      (fun steps => Memory.initial.run program natives steps host) (Evaluation.group units natives time ⟨∅, host⟩) :=
    fun time => program_answers declares compiled (by decide) ⟨∅, host⟩
  constructor
  · rintro ⟨steps, ended, run, rfl⟩
    exact ⟨steps, ((answers steps).ofRun (Nat.le_refl steps) run).ending⟩
  · rintro ⟨time, ends⟩
    have finished : ∀ world, Evaluation.group units natives time ⟨∅, host⟩ ≠ .error .unfinished world := by
      intro world unfinished
      rw [unfinished] at ends
      cases ends
    obtain ⟨steps, ended, run, same⟩ := (answers time).ofResult finished
    rw [same.ending] at ends
    exact ⟨steps, ended, run, Option.some.inj ends⟩

/-- A script with a global, a function, a loop and a call of a native. -/
def sampleSource : String :=
  "global last = null;\nfunction keep(text) \x7b note(text); last = text; return ''; \x7d\n" ++
    "var word = 'a';\nwhile (word) \x7b word = keep(word); \x7d"

/-- A native that keeps its arguments in the state of the host. -/
def sampleNatives : Natives (List Value) := ⟨[("note", ⟨some 1, fun args kept => (.returned .null, kept ++ args)⟩)]⟩

/-- The syntax tree of the script. -/
def sampleUnit : ParsedUnit where
  name := "main"
  artifact := "main"
  globals := [⟨"last", .null, 1⟩]
  functions := [⟨"keep", ["text"], [.expr (.call "note" [.name "text" 2] 2), .expr (.assign "last" (.name "text" 2) 2),
    .giveBack (some (.text "")) 2], 2⟩]
  statements := [.declare "word" true (some (.text "a")) 3,
    .loop (.name "word" 4) (.block [.expr (.assign "word" (.call "keep" [.name "word" 4] 4) 4)])]

private theorem sampleSource_tokens : Script.TokenStream.ofSource sampleSource =
    ⟨[⟨.keyword .globalWord, 1⟩, ⟨.name "last", 1⟩, ⟨.symbol .assign, 1⟩, ⟨.keyword .nullWord, 1⟩, ⟨.symbol .semicolon, 1⟩,
      ⟨.keyword .functionWord, 2⟩, ⟨.name "keep", 2⟩, ⟨.symbol .leftParen, 2⟩, ⟨.name "text", 2⟩, ⟨.symbol .rightParen, 2⟩,
      ⟨.symbol .leftBrace, 2⟩, ⟨.name "note", 2⟩, ⟨.symbol .leftParen, 2⟩, ⟨.name "text", 2⟩, ⟨.symbol .rightParen, 2⟩,
      ⟨.symbol .semicolon, 2⟩, ⟨.name "last", 2⟩, ⟨.symbol .assign, 2⟩, ⟨.name "text", 2⟩, ⟨.symbol .semicolon, 2⟩,
      ⟨.keyword .returnWord, 2⟩, ⟨.text "", 2⟩, ⟨.symbol .semicolon, 2⟩, ⟨.symbol .rightBrace, 2⟩,
      ⟨.keyword .varWord, 3⟩, ⟨.name "word", 3⟩, ⟨.symbol .assign, 3⟩, ⟨.text "a", 3⟩, ⟨.symbol .semicolon, 3⟩,
      ⟨.keyword .whileWord, 4⟩, ⟨.symbol .leftParen, 4⟩, ⟨.name "word", 4⟩, ⟨.symbol .rightParen, 4⟩, ⟨.symbol .leftBrace, 4⟩,
      ⟨.name "word", 4⟩, ⟨.symbol .assign, 4⟩, ⟨.name "keep", 4⟩, ⟨.symbol .leftParen, 4⟩, ⟨.name "word", 4⟩,
      ⟨.symbol .rightParen, 4⟩, ⟨.symbol .semicolon, 4⟩, ⟨.symbol .rightBrace, 4⟩], .finish 4⟩ := by
  decide +kernel

theorem sampleSource_parses :
    (Environment.initial "group" sampleNatives.signatures []).parseAll [⟨sampleSource, "main", "main", false⟩] =
      ([sampleUnit], (Environment.initial "group" sampleNatives.signatures []).declareUnit sampleUnit) := by
  simp only [Environment.parseAll, Environment.parse, sampleSource_tokens]
  cbv

theorem sampleUnit_compiles :
    (Compile.compileGroup ((Environment.initial "group" sampleNatives.signatures []).declareUnit sampleUnit) true
      [sampleUnit] ∅).result = .ok () := by
  have made : (Compile.program ((Environment.initial "group" sampleNatives.signatures []).declareUnit sampleUnit) true
      [sampleUnit]).toBool = true := by decide +kernel
  refine Compile.compileGroup_result.mpr ?_
  cases program : Compile.program ((Environment.initial "group" sampleNatives.signatures []).declareUnit sampleUnit) true
      [sampleUnit] with
  | ok made => exact ⟨made, rfl⟩
  | error error =>
    rw [program] at made
    cases made

/-- The script runs as it evaluates. -/
theorem sampleSource_run_iff_ends :
    let env := (Environment.initial "group" sampleNatives.signatures []).declareUnit sampleUnit
    ∃ program, Compile.program env true [sampleUnit] = .ok program ∧
      Compile.compileGroup env true [sampleUnit] ∅ = ⟨.ok (), Compile.emitted ∅ [sampleUnit] program⟩ ∧
      ∀ (host : List Value) (ending : Ending (List Value)),
        (∃ steps ended, Memory.initial.run program sampleNatives steps host = some ended ∧ endingOf ended = ending) ↔
          Ends [sampleUnit] sampleNatives host ending :=
  run_iff_ends sampleNatives "group" [] [⟨sampleSource, "main", "main", false⟩] _ _ true ∅ sampleSource_parses
    sampleUnit_compiles

end Scriptorium.Simulation
