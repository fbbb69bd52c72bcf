import Scriptorium.Proofs.StatementRuns

/-!
# Runs of calls

Calls of functions and natives, by the time that is left: a function is entered with its arguments as its
locals, its body is followed with less time, and its return comes back to the caller. What a program has to
have for this is `Linked`: the functions of the units, compiled in the environment of the group.
-/
namespace Scriptorium.Simulation

open Bytecode (Instruction Placed Segment)
open Compile (Coding Context Local Progress Scope StmtsCode bind_eq_ok declareLocal_eq_ok emit_eq_ok
  except_bind_eq_ok maxLocals pure_eq_ok)
open Evaluation (Evaluating Fits Flow Invoke Scopes Store World callNative function? names)
open Machine (Call State)
open Script (Environment FunctionDecl ParsedUnit Signature Stmt)
open Std (HashMap)

/-- The code of a chunk: what it is made of, and null given back at the end. -/
def closed (code : Segment) (nullLine backLine : Nat) : Segment :=
  code ++ [⟨nullLine, .pushNull⟩, ⟨backLine, .giveBack⟩]

theorem chunk_eq_ok {code : Coding Segment} {line : Nat} {debug : Bool} {made : Bytecode.Chunk}
    (compiled : Compile.chunk code line debug = .ok made) :
    ∃ segment progress nullLine backLine, code ⟨#[], line⟩ = .ok (segment, progress) ∧
      made = (closed segment nullLine backLine).toChunk progress.constants debug := by
  obtain ⟨⟨whole, progress⟩, parts, same⟩ := except_bind_eq_ok.mp compiled
  cases same
  simp only [StateT.run, bind_eq_ok, emit_eq_ok, pure_eq_ok] at parts
  obtain ⟨segment, mid, first, _, _, ⟨_, _, ⟨rfl, nulled⟩, _, _, ⟨rfl, backed⟩, rfl, same⟩, rfl, last⟩ := parts
  subst nulled backed same last
  exact ⟨segment, _, _, _, first, rfl⟩

/-- The locals of parameters: the last parameter is the last declared. -/
def parameterLocals (params : List String) : List Local := params.reverse.map (⟨·, true⟩)

theorem parameters_eq_ok {ctx : Context} {params : List String} {scope after : Scope} {p q : Progress}
    (made : params.foldlM (fun scope param => Compile.declareLocal ctx scope param true) scope p = .ok (after, q)) :
    q = p ∧ after = ⟨parameterLocals params ++ scope.here, scope.outer⟩ ∧
      (scope.all.length ≤ maxLocals → after.all.length ≤ maxLocals) := by
  induction params generalizing scope p with
  | nil =>
    rw [List.foldlM_nil, pure_eq_ok] at made
    obtain ⟨rfl, rfl⟩ := made
    exact ⟨rfl, rfl, id⟩
  | cons param params ih =>
    simp only [List.foldlM_cons, bind_eq_ok, declareLocal_eq_ok] at made
    obtain ⟨_, _, ⟨-, small, rfl, rfl⟩, rest⟩ := made
    obtain ⟨rfl, rfl, room⟩ := ih rest
    refine ⟨rfl, ?_, fun _ => room ?_⟩
    · simp [parameterLocals, Scope.declare]
    · simp only [Scope.all, List.length_append] at small
      simp only [Scope.declare, Scope.all, List.cons_append, List.length_cons, List.length_append]
      omega

theorem body_eq_ok {ctx : Context} {scope : Scope} {statements : List Stmt} {p q : Progress} {code : Segment}
    (made : Compile.body ctx scope statements p = .ok (code, q)) :
    ∃ after, StmtsCode ctx q.constants scope statements code after := by
  simp only [Compile.body, bind_eq_ok, pure_eq_ok] at made
  obtain ⟨⟨code, after⟩, mid, made, rfl, rfl⟩ := made
  exact ⟨after, (Compile.statements_code made).2 _ (Compile.Grows.refl _)⟩

/-- What a compiled function looks like. -/
theorem function_eq_ok {ctx : Context} {debug : Bool} {decl : FunctionDecl} {made : Bytecode.Function}
    (compiled : Compile.function ctx debug decl = .ok made) :
    made.name = decl.name ∧ made.arity = decl.params.length ∧ decl.params.length ≤ maxLocals ∧
    ∃ code constants nullLine backLine after,
      made.chunk = (closed code nullLine backLine).toChunk constants debug ∧
      StmtsCode ctx constants ⟨parameterLocals decl.params, []⟩ decl.body code after := by
  obtain ⟨chunk, chunked, same⟩ := except_bind_eq_ok.mp compiled
  cases same
  obtain ⟨code, progress, nullLine, backLine, coded, rfl⟩ := chunk_eq_ok chunked
  obtain ⟨scope, mid, declared, coded⟩ := bind_eq_ok.mp coded
  obtain ⟨rfl, rfl, room⟩ := parameters_eq_ok declared
  obtain ⟨after, shape⟩ := body_eq_ok coded
  have few := room (Nat.zero_le _)
  simp only [Scope.all, Scope.empty, List.append_nil] at few shape
  refine ⟨rfl, rfl, ?_, code, progress.constants, nullLine, backLine, after, rfl, shape⟩
  simpa [parameterLocals] using few

section
variable {σ : Type} {setting : Setting σ} {time : Nat} {invoke : Invoke σ} {call : Call} {ctx : Context}
  {under : List Value}

/-- The machine is at a return of a call with the value on top. -/
def Returns (call : Call) (under : List Value) (value : Value) (world : World σ) (last : State) (host : σ) : Prop :=
  ∃ offset line upper, call.Has offset [⟨line, .giveBack⟩] ∧
    last = call.at offset (value :: (upper ++ under)) world.globals ∧ host = world.host

/-- The code of a body does what the body says. -/
theorem body_runs {statements : List Stmt} {code : Segment} {nullLine backLine : Nat} {scope after : Scope}
    {locals : List (String × Value)} {world : World σ} (followed : Followed setting time invoke call ctx under)
    (room : scope.all.length ≤ maxLocals) (shape : StmtsCode ctx call.constants scope statements code after)
    (whole : call.code = closed code nullLine backLine) (fits : Fits scope [locals]) :
    setting.Runs time id (call.at 0 (Scopes.values [locals] ++ under) world.globals) world.host (Returns call under)
      (Evaluation.body call.unit invoke time locals statements world) := by
  have has : call.Has 0 (code ++ [⟨nullLine, .pushNull⟩, ⟨backLine, .giveBack⟩]) := ⟨[], [], by simp [whole, closed], rfl⟩
  refine Setting.Runs.withScopes (Setting.Runs.bind (statements_goe followed room shape has.left fits)
    (fun flow store last host continues => ?_))
  cases flow with
  | giveBack value => exact Setting.Runs.done continues
  | next =>
    obtain ⟨-, -, rfl, rfl⟩ := continues
    refine Setting.Runs.step (Machine.step_pushNull has.right.head) (Setting.Runs.done ?_)
    exact ⟨_, backLine, store.scopes.values, has.right.tail, rfl, rfl⟩

end

/-- A program has the compiled functions of units, under the names that the environment knows them by. -/
structure Linked {σ : Type} (units : List ParsedUnit) (setting : Setting σ) : Prop where
  arity : ∀ name, (setting.env.function? name).map Signature.arity =
    (function? units name).map fun found => found.2.params.length
  compiled : ∀ name owner decl, function? units name = some (owner, decl) →
    ∃ made, setting.program.functions[name]? = some ⟨owner, made⟩ ∧
      Compile.function ⟨owner, setting.env⟩ setting.debug decl = .ok made
  absent : ∀ name, function? units name = none → setting.program.functions[name]? = none
  natives : ∀ name, setting.env.native? name = (setting.natives.get? name).map Native.arity

section
variable {σ : Type} {setting : Setting σ} {units : List ParsedUnit}

/-- A call of a native does what the native does. -/
theorem callNative_runs (linked : Linked units setting) {time line offset : Nat} {index : UInt16} {count : UInt8}
    {name : String} {args stack : List Value} {world : World σ} {call : Call} (debug : call.debug = setting.debug)
    (has : call.Has offset [⟨line, .call index count⟩]) (known : call.constants[index.toNat]? = some (.text name))
    (byte : count.toNat = args.length) (callable : Callable setting.env name args.length)
    (absent : function? units name = none) :
    setting.Runs time id (call.at offset (args.reverse ++ stack) world.globals) world.host
      (fun value world last lastHost =>
        last = call.at (offset + 4) (value :: stack) world.globals ∧ lastHost = world.host)
      (callNative setting.natives call.unit name args line world) := by
  have unknown : setting.env.function? name = none := by
    have arity := linked.arity name
    rw [absent] at arity
    exact Option.map_eq_none_iff.mp arity
  simp only [Callable, unknown, linked.natives name, Option.map_eq_some_iff] at callable
  obtain ⟨_, ⟨native, found, rfl⟩, accepts⟩ := callable
  have stepped : Machine.step setting.program setting.natives
      (call.at offset (args.reverse ++ stack) world.globals) world.host = _ := Machine.step_call has known
  rw [byte, Machine.executeCall_native (linked.absent name absent) found accepts] at stepped
  simp only [callNative, found, Native.accepts, accepts, Bool.not_true, Bool.false_eq_true, if_false]
  rcases called : native.call args world.host with ⟨value | message | panic, after⟩
  · simp only [called] at stepped
    exact Setting.Runs.step stepped (Setting.Runs.done ⟨rfl, rfl⟩)
  · simp only [called, Call.site, debug] at stepped
    exact ⟨.refused name message, 0, _, _, _, .refl, stepped, rfl⟩
  · simp only [called] at stepped
    exact ⟨0, _, _, _, .refl, stepped, rfl⟩

private theorem parameters_fit {params : List String} {args : List Value} (same : params.length = args.length) :
    Fits ⟨parameterLocals params, []⟩ [(params.zip args).reverse] := by
  have named : List.map (Local.name ∘ fun x => ⟨x, true⟩) params = params := List.map_id params
  refine ⟨?_, rfl⟩
  simp [names, parameterLocals, List.map_fst_zip (Nat.le_of_eq same), named]

private theorem parameters_values {params : List String} {args : List Value} (same : params.length = args.length) :
    Scopes.values [(params.zip args).reverse] = args.reverse := by
  simp [Scopes.values, List.map_snd_zip (Nat.le_of_eq same.symm)]

/-- Calls do what calling says, whatever the depth at which they are made. -/
theorem calls_run (linked : Linked units setting) (time : Nat) (call : Call) (debug : call.debug = setting.debug) :
    setting.CallsRun time (Evaluation.call units setting.natives time call.depth call.unit) call := by
  induction time generalizing call with
  | zero =>
    intro offset line index count name args stack world has known byte callable
    exact Setting.Runs.unfinished
  | succ time ih =>
    intro offset line index count name args stack world has known byte callable
    unfold Evaluation.call
    cases found : function? units name with
    | none => exact callNative_runs linked debug has known byte callable found
    | some target =>
      obtain ⟨owner, decl⟩ := target
      obtain ⟨made, stored, compiled⟩ := linked.compiled name owner decl found
      obtain ⟨-, arity, few, code, constants, nullLine, backLine, after, chunk, shape⟩ := function_eq_ok compiled
      have counts : decl.params.length = args.length := by
        have same := linked.arity name
        obtain ⟨signature, signed, length⟩ : ∃ signature, setting.env.function? name = some signature ∧
            signature.arity = decl.params.length := by
          simpa [found, Option.map_eq_some_iff] using same
        simp only [Callable, signed] at callable
        rw [← length, callable]
      have stepped : Machine.step setting.program setting.natives
          (call.at offset (args.reverse ++ stack) world.globals) world.host = _ := Machine.step_call has known
      rw [byte, Machine.executeCall_function stored (arity.trans counts) (debug ▸ chunk)] at stepped
      simp only [counts, ne_eq, not_true_eq_false, if_false]
      by_cases deep : Machine.maxDepth ≤ call.depth
      · have deepHere : Evaluation.maxActive ≤ call.depth := deep
        rw [if_pos deep] at stepped
        rw [if_pos deepHere]
        simp only [Call.site, debug] at stepped
        exact ⟨.stackOverflow, 0, _, _, _, .refl, stepped, rfl⟩
      · have roomHere : ¬ Evaluation.maxActive ≤ call.depth := deep
        rw [if_neg deep] at stepped
        rw [if_neg roomHere]
        let inner := call.inner (offset + 4) owner stack.length (closed code nullLine backLine) constants
        have followed : Followed setting time (Evaluation.call units setting.natives time (call.depth + 1) owner) inner
            ⟨owner, setting.env⟩ stack := ⟨ih inner debug, rfl, debug, rfl⟩
        have room : (Scope.all ⟨parameterLocals decl.params, []⟩).length ≤ maxLocals := by
          simpa [parameterLocals, Scope.all] using few
        refine Setting.Runs.tick stepped ?_
        rw [← parameters_values counts]
        refine Setting.Runs.more (body_runs followed room shape rfl (parameters_fit counts))
          (fun value after last host returns => ?_)
        obtain ⟨back, _, upper, backHas, rfl, rfl⟩ := returns
        exact Setting.Runs.step (Machine.step_giveBack_inner backHas rfl rfl rfl) (Setting.Runs.done ⟨rfl, rfl⟩)

end

end Scriptorium.Simulation
