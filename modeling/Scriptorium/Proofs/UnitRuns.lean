import Scriptorium.Compile.Group
import Scriptorium.Proofs.CallRuns
import Scriptorium.Proofs.Visits

/-!
# Runs of units

The chunks of a unit, its initial values and its body, run as they are evaluated, and what a machine answers
is what the evaluation comes to. `Answers` says this of a run that is given its greatest number of steps: it
has the answer of the evaluation once that number is large enough, and none as long as the evaluation has
not had time enough.
-/
namespace Scriptorium.Simulation

open Bytecode (CompiledUnit Instruction Segment)
open Compile (Context ExprCode Makes Scope bind_eq_ok emit_eq_ok except_bind_eq_ok lookAt_eq_ok pure_eq_ok)
open Evaluation (Acting Fits Invoke Scopes Store World)
open Evaluation.Scopes (SameNames)
open Machine (Call Ended Keeps Memory Program State runBody runBodies runSteps)
open Script (GlobalDecl ParsedUnit)
open Std (HashMap)

/-- What the code looks like that gives globals their initial values. -/
def GlobalsCode (ctx : Context) (pool : Array Value) : List GlobalDecl → Segment → Prop
  | [], code => code = []
  | decl :: decls, code => ∃ (valueCode : Segment) (line : Nat) (index : UInt16) (rest : Segment),
      code = valueCode ++ ⟨line, .defineGlobal index⟩ :: rest ∧ pool[index.toNat]? = some (.text decl.name) ∧
      ExprCode ctx pool Scope.empty decl.initial valueCode ∧ GlobalsCode ctx pool decls rest

theorem globalsCode_code {ctx : Context} {decls : List GlobalDecl} {p q : Compile.Progress} {code : Segment}
    (made : Compile.globalsCode ctx decls p = .ok (code, q)) :
    Makes p.constants q.constants (GlobalsCode ctx · decls code) := by
  induction decls generalizing p code with
  | nil =>
    obtain ⟨rfl, rfl⟩ := pure_eq_ok.mp made
    exact Makes.refl (fun _ => rfl)
  | cons decl decls ih =>
    simp only [Compile.globalsCode, Compile.globalCode, Compile.nameIndex, bind_eq_ok, lookAt_eq_ok, emit_eq_ok,
      pure_eq_ok] at made
    obtain ⟨_, _, ⟨_, _, rfl, valueCode, _, valueMade, index, _, indexed, _, mid, ⟨rfl, rfl⟩, rfl, rfl⟩, rest, _,
      restMade, rfl, rfl⟩ := made
    have valueShape := Compile.expression_code valueMade
    obtain ⟨grows, known, -⟩ := Compile.constantIndex_grows indexed
    have indexShape : Makes _ _ (fun pool => pool[index.toNat]? = some (.text decl.name)) :=
      ⟨grows, fun pool later => later _ _ known⟩
    refine (valueShape.both indexShape (fun _ => And.intro)).both (ih restMade) (fun pool first rest => ?_)
    exact ⟨valueCode, mid.line, index, _, by simp, first.2, first.1, rest⟩

section
variable {σ : Type} {setting : Setting σ} {time : Nat} {invoke : Invoke σ} {call : Call} {ctx : Context}

/-- An initial value is computed without locals. -/
theorem initial_runs {decl : GlobalDecl} {code : Segment} {offset : Nat} {world : World σ}
    (followed : Followed setting time invoke call ctx [])
    (shape : ExprCode ctx call.constants Scope.empty decl.initial code) (has : call.Has offset code) :
    setting.Runs time id (call.at offset [] world.globals) world.host
      (fun value world last host =>
        last = call.at (offset + Segment.size code) [value] world.globals ∧ host = world.host)
      (Evaluation.withScopes [[]] (Evaluation.expression call.unit invoke decl.initial) world) := by
  have fits : Fits Scope.empty [[]] := ⟨rfl, rfl⟩
  have leads : Leads setting time call [] offset (offset + Segment.size code) [] [[]] world ([·])
      (Evaluation.expression call.unit invoke decl.initial) :=
    expression_leads followed (Nat.zero_le _) shape has fits
  refine Setting.Runs.withScopes (Setting.Runs.imp leads (fun value store last host left => ?_))
  obtain ⟨same, rfl, rfl⟩ := left
  have free : store.scopes.values = [] := by
    have lengths := (fits.sameNames same).length
    exact List.eq_nil_of_length_eq_zero lengths
  exact ⟨by rw [free]; rfl, rfl⟩

/-- What the machine does keeps the globals. -/
theorem Setting.Runs.keeps {τ α : Type} {world : τ → World σ} {state : State} {host : σ}
    {post : α → τ → State → σ → Prop} {result : EStateM.Result Evaluation.Stop τ α}
    (runs : setting.Runs time world state host post result) :
    setting.Runs time world state host
      (fun a store last lastHost => post a store last lastHost ∧ Keeps state.globals last.globals) result := by
  cases result with
  | ok a store =>
    obtain ⟨n, last, lastHost, run, holds⟩ := runs
    exact ⟨n, last, lastHost, run, holds, run.keeps⟩
  | error stop store => exact runs

/-- Initial values go into their globals, one after the other. -/
theorem initials_run {decls : List GlobalDecl} {code : Segment} {offset : Nat} {world : World σ}
    (followed : Followed setting time invoke call ctx []) (shape : GlobalsCode ctx call.constants decls code)
    (has : call.Has offset code) :
    setting.Runs time id (call.at offset [] world.globals) world.host
      (fun _ world last host => last = call.at (offset + Segment.size code) [] world.globals ∧ host = world.host ∧
        ∀ decl ∈ decls, decl.name ∈ world.globals)
      (Evaluation.initials call.unit invoke decls world) := by
  induction decls generalizing code offset world with
  | nil =>
    obtain rfl := shape
    exact Setting.Runs.done ⟨rfl, rfl, fun _ => nofun⟩
  | cons decl decls ih =>
    obtain ⟨valueCode, line, index, rest, rfl, known, valueShape, restShape⟩ := shape
    unfold Evaluation.initials
    refine Setting.Runs.bind (initial_runs followed valueShape has.left) (fun value world last host left => ?_)
    obtain ⟨rfl, rfl⟩ := left
    refine Setting.Runs.step (Machine.step_defineGlobal has.right.head known) (Setting.Runs.modify ?_)
    refine (ih restShape has.right.tail).keeps.imp (fun _ world last host done => ?_)
    obtain ⟨⟨rfl, rfl, defined⟩, kept⟩ := done
    refine ⟨?_, rfl, fun other member => ?_⟩
    · rw [Segment.size_append, size_cons, ← Nat.add_assoc, ← Nat.add_assoc]
    · obtain rfl | later := List.mem_cons.mp member
      · exact kept other.name HashMap.mem_insert_self
      · exact defined other later

end

section
variable {σ : Type} (setting : Setting σ)

/-- The end of a run is the result of an evaluation; `depth` is the number of calls that count as active at
the end. A panic leaves behind some other number. -/
def Matches (depth : Nat) : EStateM.Result Evaluation.Stop (World σ) Unit → Ended σ → Prop
  | .ok _ world, ended => ended = ⟨.finished, ⟨world.globals, depth⟩, world.host⟩
  | .error (.fault fault unit line) world, ended => Expected setting.env fault ∧
      ended = ⟨.failed ⟨fault, some ⟨unit, if setting.debug then some line else none⟩⟩, ⟨world.globals, depth⟩, world.host⟩
  | .error (.panicked panic) world, ended => ended.result = .panicked panic ∧ ended.memory.globals = world.globals ∧
      ended.host = world.host
  | .error .unfinished _, _ => False

/-- A run that is given its greatest number of steps has the result of an evaluation, which is given its time. -/
def Answers (time depth : Nat) (run : Nat → Option (Ended σ)) (result : EStateM.Result Evaluation.Stop (World σ) Unit) :
    Prop :=
  (∃ ended enough, Matches setting depth result ended ∧ (∀ steps, enough ≤ steps → run steps = some ended) ∧
    ∀ steps, run steps = none ∨ run steps = some ended) ∨
  (∃ world, result = .error .unfinished world) ∧ ∀ steps ≤ time, run steps = none

variable {setting} {time depth : Nat} {run : Nat → Option (Ended σ)}

/-- The run of a chunk answers what its code was followed through. -/
theorem Setting.Runs.answers {call : Call} {start : State} {host : σ}
    {result : EStateM.Result Evaluation.Stop (World σ) Unit} (outermost : call.callers = [])
    (runs : setting.Runs time id start host
      (fun _ world last lastHost => ∃ value, Returns call [] value world last lastHost) result) :
    Answers setting time depth (fun steps => runSteps setting.program setting.natives depth steps start host) result := by
  cases result with
  | ok a world =>
    obtain ⟨n, last, lastHost, run, value, offset, line, upper, has, rfl, rfl⟩ := runs
    have ends := run.runSteps_ends depth ⟨.finished, ⟨world.globals, depth⟩, world.host⟩ (fun steps => by
      rw [runSteps, Machine.step_giveBack_outermost has outermost]
      rfl)
    exact .inl ⟨_, n + 1, rfl, ends⟩
  | error stop world =>
    cases stop with
    | fault fault unit line =>
      obtain ⟨expected, n, last, lastHost, failed, run, stopped, same⟩ := runs
      have ends := run.runSteps_ends depth _ (fun steps => by rw [runSteps, stopped])
      exact .inl ⟨_, n + 1, ⟨expected, by rw [same]; rfl⟩, ends⟩
    | panicked panic =>
      obtain ⟨n, last, lastHost, failed, run, stopped, same⟩ := runs
      have ends := run.runSteps_ends depth _ (fun steps => by rw [runSteps, stopped])
      exact .inl ⟨_, n + 1, ⟨rfl, same, rfl⟩, ends⟩
    | unfinished =>
      obtain ⟨n, last, lastHost, long, run⟩ := runs
      exact .inr ⟨⟨world, rfl⟩, fun steps few => run.runSteps_none steps (Nat.le_trans few long)⟩

/-- What does not finish well has an end that is no good one. -/
theorem Matches.not_finished {stop : Evaluation.Stop} {world : World σ} {ended : Ended σ}
    (same : Matches setting depth (.error stop world) ended) : ended.result ≠ .finished := by
  cases stop with
  | fault fault unit line =>
    obtain ⟨-, rfl⟩ := same
    exact fun finished => Machine.RunResult.noConfusion finished
  | panicked panic =>
    rw [same.1]
    exact fun finished => Machine.RunResult.noConfusion finished
  | unfinished => exact same.elim

/-- An answer is the result of an evaluation that is given as much time. -/
theorem Answers.ofRun {result : EStateM.Result Evaluation.Stop (World σ) Unit} {steps : Nat} {ended : Ended σ}
    (answers : Answers setting time depth run result) (few : steps ≤ time) (answered : run steps = some ended) :
    Matches setting depth result ended := by
  obtain ⟨other, enough, same, -, only⟩ | ⟨-, none⟩ := answers
  · obtain absent | here := only steps
    · exact absurd (answered.symm.trans absent) (by simp)
    · obtain rfl := Option.some.inj (answered.symm.trans here)
      exact same
  · exact absurd (answered.symm.trans (none steps few)) (by simp)

/-- A result is an answer of the run when it is given steps enough. -/
theorem Answers.ofResult {result : EStateM.Result Evaluation.Stop (World σ) Unit}
    (answers : Answers setting time depth run result) (finished : ∀ world, result ≠ .error .unfinished world) :
    ∃ steps ended, run steps = some ended ∧ Matches setting depth result ended := by
  obtain ⟨ended, enough, same, has, -⟩ | ⟨⟨world, unfinished⟩, -⟩ := answers
  · exact ⟨enough, ended, has enough (Nat.le_refl enough), same⟩
  · exact absurd unfinished (finished world)

/-- Two runs after each other answer what two evaluations after each other come to. -/
theorem Answers.bind {first : Acting σ Unit} {rest : Unit → Acting σ Unit} {world : World σ}
    {firstRun : Nat → Option (Ended σ)} (restRun : Nat → Memory → σ → Option (Ended σ))
    (answers : Answers setting time depth firstRun (first world))
    (next : ∀ world, Answers setting time depth (fun steps => restRun steps ⟨world.globals, depth⟩ world.host) (rest () world))
    (split : ∀ steps, run steps =
      match firstRun steps with
      | some ⟨.finished, memory, host⟩ => restRun steps memory host
      | ended => ended) :
    Answers setting time depth run ((first >>= rest) world) := by
  show Answers setting time depth run (EStateM.bind first rest world)
  unfold EStateM.bind
  cases evaluated : first world with
  | ok a after =>
    rw [evaluated] at answers
    obtain ⟨ended, enough, rfl, has, only⟩ | ⟨⟨world, impossible⟩, -⟩ := answers
    · have absent : ∀ steps, firstRun steps = none → run steps = none := by
        intro steps none
        rw [split, none]
      have present : ∀ steps, firstRun steps = some ⟨.finished, ⟨after.globals, depth⟩, after.host⟩ →
          run steps = restRun steps ⟨after.globals, depth⟩ after.host := by
        intro steps here
        rw [split, here]
      obtain ⟨last, more, same, lastHas, lastOnly⟩ | ⟨unfinished, none⟩ := next after
      · refine .inl ⟨last, max enough more, same, fun steps many => ?_, fun steps => ?_⟩
        · rw [present steps (has steps (Nat.le_trans (Nat.le_max_left _ _) many))]
          exact lastHas steps (Nat.le_trans (Nat.le_max_right _ _) many)
        · obtain none | here := only steps
          · exact .inl (absent steps none)
          · rw [present steps here]
            exact lastOnly steps
      · refine .inr ⟨unfinished, fun steps few => ?_⟩
        obtain absentHere | here := only steps
        · exact absent steps absentHere
        · rw [present steps here]
          exact none steps few
    · cases impossible
  | error stop after =>
    rw [evaluated] at answers
    obtain ⟨ended, enough, same, has, only⟩ | ⟨unfinished, none⟩ := answers
    · have stays : ∀ steps, firstRun steps = some ended → run steps = some ended := by
        intro steps here
        rw [split, here]
        have bad := same.not_finished
        obtain ⟨_ | _ | _, memory, host⟩ := ended
        · exact absurd rfl bad
        · rfl
        · rfl
      refine .inl ⟨ended, enough, same, fun steps many => stays steps (has steps many), fun steps => ?_⟩
      obtain none | here := only steps
      · exact .inl (by rw [split, none])
      · exact .inr (stays steps here)
    · refine .inr ⟨unfinished.imp (fun world same => ?_), fun steps few => by rw [split, none steps few]⟩
      cases same
      rfl

/-- Bodies after each other. -/
theorem runBodies_append {program : Program} {natives : Natives σ} {steps : Nat} {a b : List CompiledUnit} {memory : Memory}
    {host : σ} : runBodies program natives steps memory host (a ++ b) =
      match runBodies program natives steps memory host a with
      | some ⟨.finished, memory, host⟩ => runBodies program natives steps memory host b
      | ended => ended := by
  induction a generalizing memory host with
  | nil => rfl
  | cons first a ih =>
    rw [List.cons_append, runBodies, runBodies]
    rcases runBody program natives steps first memory host with _ | ⟨_ | _ | _, memory, host⟩
    · rfl
    · exact ih
    · rfl
    · rfl

variable {units : List ParsedUnit} {parsed : ParsedUnit} {compiled : CompiledUnit} {world : World σ}

/-- The run of a body that begins on an empty stack answers what its code was followed through. -/
theorem Setting.Runs.answersBody {call : Call} {result : EStateM.Result Evaluation.Stop (World σ) Unit}
    (outermost : call.callers = []) (room : depth < Machine.maxDepth)
    (runs : setting.Runs time id (Machine.start compiled ⟨world.globals, depth⟩) world.host
      (fun _ world last host => ∃ value, Returns call [] value world last host) result) :
    Answers setting time depth
      (fun steps => runBody setting.program setting.natives steps compiled ⟨world.globals, depth⟩ world.host) result := by
  have same : (fun steps => runBody setting.program setting.natives steps compiled ⟨world.globals, depth⟩ world.host) =
      fun steps => runSteps setting.program setting.natives depth steps (Machine.start compiled ⟨world.globals, depth⟩)
        world.host := funext fun steps => Machine.runBody_eq room
  rw [same]
  exact runs.answers outermost

/-- The initial values of a unit are computed, and then its globals are there. -/
theorem giveInitials_runs (linked : Linked units setting) (time depth : Nat) (world : World σ)
    (made : Compile.initialValues setting.env setting.debug parsed = .ok compiled) :
    ∃ call : Call, call.callers = [] ∧
      setting.Runs time id (Machine.start compiled ⟨world.globals, depth⟩) world.host
        (fun _ world last host => (∃ value, Returns call [] value world last host) ∧
          ∀ decl ∈ parsed.globals, decl.name ∈ world.globals)
        (Evaluation.giveInitials units setting.natives time (depth + 1) parsed world) := by
  obtain ⟨chunk, chunked, same⟩ := except_bind_eq_ok.mp made
  cases same
  obtain ⟨code, progress, nullLine, backLine, coded, rfl⟩ := chunk_eq_ok chunked
  have shape := (globalsCode_code coded).2 _ (Compile.Grows.refl _)
  let call : Call := ⟨closed code nullLine backLine, progress.constants, setting.debug, parsed.name, 0, [], depth + 1⟩
  have followed : Followed setting time (Evaluation.call units setting.natives time (depth + 1) parsed.name) call
      ⟨parsed.name, setting.env⟩ [] := ⟨calls_run linked time call rfl, rfl, rfl, rfl⟩
  have has : call.Has 0 (closed code nullLine backLine) := ⟨[], [], by simp [call], rfl⟩
  refine ⟨call, rfl, Setting.Runs.more (initials_run followed shape has.left) (fun _ world last host done => ?_)⟩
  obtain ⟨rfl, rfl, defined⟩ := done
  refine Setting.Runs.step (Machine.step_pushNull has.right.head) (Setting.Runs.done ⟨?_, defined⟩)
  exact ⟨.null, _, backLine, [], has.right.tail, rfl, rfl⟩

theorem giveInitials_answers (linked : Linked units setting) (time : Nat) (world : World σ) (room : depth < Machine.maxDepth)
    (made : Compile.initialValues setting.env setting.debug parsed = .ok compiled) :
    Answers setting time depth
      (fun steps => runBody setting.program setting.natives steps compiled ⟨world.globals, depth⟩ world.host)
      (Evaluation.giveInitials units setting.natives time (depth + 1) parsed world) := by
  obtain ⟨call, outermost, runs⟩ := giveInitials_runs linked time depth world made
  exact Setting.Runs.answersBody outermost room (runs.imp (fun _ _ _ _ done => done.1))

/-- When the initial values of a unit have been computed, its globals are there. -/
theorem giveInitials_defines (linked : Linked units setting) (world : World σ) (room : depth < Machine.maxDepth)
    (made : Compile.initialValues setting.env setting.debug parsed = .ok compiled) {steps : Nat} {next : Memory}
    {nextHost : σ} (run : runBody setting.program setting.natives steps compiled ⟨world.globals, depth⟩ world.host =
      some ⟨.finished, next, nextHost⟩) :
    next.depth = depth ∧ ∀ decl ∈ parsed.globals, decl.name ∈ next.globals := by
  have same := (giveInitials_answers linked steps world room made).ofRun (Nat.le_refl steps) run
  obtain ⟨call, outermost, runs⟩ := giveInitials_runs linked steps depth world made
  cases evaluated : Evaluation.giveInitials units setting.natives steps (depth + 1) parsed world with
  | ok _ after =>
    rw [evaluated] at same runs
    obtain ⟨n, last, lastHost, -, -, defined⟩ := runs
    obtain ⟨-, rfl, -⟩ := Ended.mk.inj same
    exact ⟨rfl, defined⟩
  | error stop after =>
    rw [evaluated] at same
    exact absurd rfl same.not_finished

/-- The body of a unit. -/
theorem runUnit_answers (linked : Linked units setting) (time : Nat) (world : World σ) (room : depth < Machine.maxDepth)
    (made : Compile.compileUnit setting.env setting.debug parsed = .ok compiled) :
    Answers setting time depth
      (fun steps => runBody setting.program setting.natives steps compiled ⟨world.globals, depth⟩ world.host)
      (Evaluation.runUnit units setting.natives time (depth + 1) parsed world) := by
  obtain ⟨functions, -, rest⟩ := except_bind_eq_ok.mp made
  obtain ⟨chunk, chunked, same⟩ := except_bind_eq_ok.mp rest
  cases same
  obtain ⟨code, progress, nullLine, backLine, coded, rfl⟩ := chunk_eq_ok chunked
  obtain ⟨after, shape⟩ := body_eq_ok coded
  let call : Call := ⟨closed code nullLine backLine, progress.constants, setting.debug, parsed.name, 0, [], depth + 1⟩
  have followed : Followed setting time (Evaluation.call units setting.natives time (depth + 1) parsed.name) call
      ⟨parsed.name, setting.env⟩ [] := ⟨calls_run linked time call rfl, rfl, rfl, rfl⟩
  have fits : Fits Scope.empty [[]] := ⟨rfl, rfl⟩
  have outermost : call.callers = [] := rfl
  refine Setting.Runs.answersBody outermost room (Setting.Runs.bind (body_runs followed (Nat.zero_le _) shape rfl fits)
    (fun value world last host returns => ?_))
  exact Setting.Runs.done ⟨value, returns⟩

end

end Scriptorium.Simulation
