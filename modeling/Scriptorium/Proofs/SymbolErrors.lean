import Scriptorium.Proofs.GroupRuns
import Scriptorium.Proofs.Loading
import Scriptorium.Proofs.ScopeChecks
import Scriptorium.Proofs.SymbolTable

/-!
# Symbol errors

Compiling a group checks the names of its artifacts and then all constructs of its units (`compileGroup_checked`). So a group that
follows the rules of scoping compiles, or fails with an error that reports a limit, and one that does not follow them fails
(`compiles_if_wellScoped`); and an error that is due to a symbol names the unit of a construct that breaks a rule, and the line of
that construct (`symbol_error_names_construct`), unless the construct is a declaration that repeats a name and its initial value
ends on another line (`repeatedSource_misplaces_error`).
-/
namespace Scriptorium.Compile

open Bytecode (Segment)
open Script (Environment FunctionDecl GlobalDecl Locals Occurrence ParsedUnit Stmt Symbols)

section
variable {symbols : Symbols} {line : Nat} (ctx : Context)

private theorem body_checks (knows : Knows ctx.env symbols) (locals : Locals) (line : Nat) (statements : List Stmt) :
    Checks symbols ctx.unit (Stmt.occurrencesOf locals statements) line (fun _ _ => True) (body ctx (.ofLocals locals) statements) :=
  checks_then (statements_checks knows locals maxNesting line statements) fun _ _ _ => checks_pure trivial

/-- Parameters are declared one after the other in one scope. -/
theorem parameters_checks (locals : Locals) (line : Nat) (params : List String) :
    Checks symbols ctx.unit (Script.parameterOccurrences line locals params) line
      (fun scope after => scope = .ofLocals (Script.parameterLocals locals params) ∧ after = line)
      (params.foldlM (fun scope param => declareLocal ctx scope param true) (Scope.ofLocals locals)) := by
  induction params generalizing locals with
  | nil => exact checks_pure ⟨rfl, rfl⟩
  | cons param params ih =>
    rw [List.foldlM_cons]
    exact checks_bind (declareLocal_checks true id .repeatedParameter rfl) fun scope between ⟨same, kept⟩ => by
      rw [same, kept]
      exact ih (locals.declare param true)

private theorem chunk_checks {code : Coding Segment} {found : List Occurrence} {next : Segment → Nat → Prop}
    (checks : Checks symbols ctx.unit found line next code) (debug : Bool) :
    Checked symbols ctx.unit found (fun _ => True) (chunk code line debug) := by
  have ended : Checks symbols ctx.unit found line (fun _ _ => True)
      (do return (← code) ++ (← (do return (← emit .pushNull) ++ (← emit .giveBack)))) := by
    refine checks_then checks fun _ _ _ => checks_after (fun _ => ?_) fun _ => checks_pure trivial
    exact checks_after (emit_quiet _) fun _ => checks_after (emit_quiet _) fun _ => quiet_of_pure _ _
  exact Checked.before (ended #[]) fun _ _ => checked_ok trivial

private theorem function_checks (knows : Knows ctx.env symbols) (debug : Bool) (decl : FunctionDecl) :
    Checked symbols ctx.unit decl.occurrences (fun _ => True) (function ctx debug decl) := by
  have code : Checks symbols ctx.unit decl.occurrences decl.line (fun _ _ => True)
      (do body ctx (← parameters ctx decl.params) decl.body) := by
    refine checks_bind (parameters_checks ctx .start decl.line decl.params) fun scope between ⟨same, _⟩ => ?_
    rw [same]
    exact body_checks ctx knows _ between decl.body
  exact Checked.before (chunk_checks ctx code debug) fun _ _ => checked_ok trivial

private theorem globalCode_checks (knows : Knows ctx.env symbols) (line : Nat) (decl : GlobalDecl) :
    Checks symbols ctx.unit (decl.initial.occurrences .start) line (fun _ _ => True) (globalCode ctx decl) := by
  unfold globalCode
  refine checks_lookAt (checks_then (expression_checks knows .start maxNesting decl.line decl.initial) fun _ _ _ => ?_)
  exact checks_after (nameIndex_quiet decl.name) fun _ => checks_after (emit_quiet _) fun _ => checks_pure trivial

private theorem globalsCode_checks (knows : Knows ctx.env symbols) (line : Nat) (decls : List GlobalDecl) :
    Checks symbols ctx.unit (decls.flatMap fun decl => decl.initial.occurrences .start) line (fun _ _ => True) (globalsCode ctx decls) := by
  induction decls generalizing line with
  | nil => exact checks_pure trivial
  | cons decl decls ih =>
    unfold globalsCode
    rw [List.flatMap_cons]
    exact checks_bind (globalCode_checks ctx knows line decl) fun _ between _ => checks_then (ih between) fun _ _ _ => checks_pure trivial

end

section
variable {symbols : Symbols} {env : Environment} {units : List ParsedUnit}

private theorem checked_mapM {α β : Type} {unit : String} {f : α → Except CompileError β} {found : α → List Occurrence}
    (each : ∀ a, Checked symbols unit (found a) (fun _ => True) (f a)) (list : List α) :
    Checked symbols unit (list.flatMap found) (fun _ => True) (list.mapM f) := by
  induction list with
  | nil => exact checked_ok trivial
  | cons a list ih =>
    rw [List.mapM_cons, List.flatMap_cons]
    exact (each a).bind fun _ _ => ih.before fun _ _ => checked_ok trivial

private theorem initialValues_checks (knows : Knows env symbols) (debug : Bool) (parsed : ParsedUnit) :
    Checked symbols parsed.name parsed.initialOccurrences (fun _ => True) (initialValues env debug parsed) := by
  have code := globalsCode_checks ⟨parsed.name, env⟩ knows firstLine parsed.globals
  exact Checked.before (chunk_checks ⟨parsed.name, env⟩ code debug) fun _ _ => checked_ok trivial

private theorem compileUnit_checks (knows : Knows env symbols) (debug : Bool) (parsed : ParsedUnit) :
    Checked symbols parsed.name parsed.bodyOccurrences (fun _ => True) (compileUnit env debug parsed) := by
  refine Checked.bind (checked_mapM (function_checks ⟨parsed.name, env⟩ knows debug) parsed.functions) fun functions _ => ?_
  have code := body_checks ⟨parsed.name, env⟩ knows .start firstLine parsed.statements
  exact Checked.before (chunk_checks ⟨parsed.name, env⟩ code debug) fun _ _ => checked_ok trivial

/-- The constructs of units have been checked: all are right, or there is an error, which one of the units is to blame for. -/
def GroupChecked {α : Type} (symbols : Symbols) (found : ParsedUnit → List Occurrence) (units : List ParsedUnit) :
    Except CompileError α → Prop
  | .ok _ => ∀ parsed ∈ units, ∀ o ∈ found parsed, symbols.Right o.locals o.construct
  | .error error => ∃ parsed ∈ units, Blames symbols parsed.name (found parsed) error

private theorem groupChecked_mapM {α : Type} {f : ParsedUnit → Except CompileError α} {found : ParsedUnit → List Occurrence}
    (each : ∀ parsed, Checked symbols parsed.name (found parsed) (fun _ => True) (f parsed)) (units : List ParsedUnit) :
    GroupChecked symbols found units (units.mapM f) := by
  induction units with
  | nil => exact List.forall_mem_nil _
  | cons parsed units ih =>
    have first := each parsed
    rw [List.mapM_cons]
    cases here : f parsed with
    | error error =>
      rw [here] at first
      exact ⟨parsed, List.mem_cons_self, first⟩
    | ok made =>
      rw [here] at first
      cases later : units.mapM f with
      | error error =>
        rw [later] at ih
        obtain ⟨other, inside, blames⟩ := ih
        exact ⟨other, List.mem_cons_of_mem _ inside, blames⟩
      | ok others =>
        rw [later] at ih
        exact List.forall_mem_cons.mpr ⟨first.1, ih⟩

private theorem initials_checked (knows : Knows env symbols) (debug : Bool) (units : List ParsedUnit) :
    GroupChecked symbols ParsedUnit.initialOccurrences units
      ((units.filter (!·.globals.isEmpty)).mapM (initialValues env debug)) := by
  have checked := groupChecked_mapM (initialValues_checks knows debug) (units.filter (!·.globals.isEmpty))
  cases made : (units.filter (!·.globals.isEmpty)).mapM (initialValues env debug) with
  | error error =>
    rw [made] at checked
    obtain ⟨parsed, kept, blames⟩ := checked
    exact ⟨parsed, List.mem_of_mem_filter kept, blames⟩
  | ok initials =>
    rw [made] at checked
    intro parsed inside o here
    refine checked parsed (List.mem_filter.mpr ⟨inside, ?_⟩) o here
    obtain ⟨decl, present, -⟩ := List.mem_flatMap.mp here
    rw [Bool.not_eq_true', List.isEmpty_eq_false_iff]
    exact List.ne_nil_of_mem present

/-- The names of the artifacts of units are free and differ, among themselves and from those that are used. -/
structure FreeNames (used : List (String × String)) (units : List ParsedUnit) : Prop where
  free : ∀ parsed ∈ units, parsed.artifact ≠ Bytecode.mainArtifact ∧ parsed.artifact ≠ Bytecode.initArtifact
  distinct : (units.map ParsedUnit.artifact).Nodup
  unused : ∀ parsed ∈ units, used.lookup parsed.artifact = none

private theorem checkNames_error {used : List (String × String)} {error : CompileError}
    (failed : checkNames used units = .error error) : error.cause.kind = .artifact ∧ ¬ FreeNames used units := by
  induction units generalizing used with
  | nil => cases failed
  | cons parsed units ih =>
    unfold checkNames at failed
    split at failed
    · rename_i reserved
      obtain rfl := Except.error.inj failed
      exact ⟨rfl, fun names => absurd reserved (not_or.mpr (names.free parsed List.mem_cons_self))⟩
    · split at failed
      · rename_i owner found
        obtain rfl := Except.error.inj failed
        refine ⟨rfl, fun names => ?_⟩
        rw [names.unused parsed List.mem_cons_self] at found
        cases found
      · obtain ⟨kind, taken⟩ := ih failed
        refine ⟨kind, fun names => taken ?_⟩
        obtain ⟨apart, distinct⟩ := List.nodup_cons.mp names.distinct
        refine ⟨fun other inside => names.free other (List.mem_cons_of_mem _ inside), distinct, fun other inside => ?_⟩
        have differ : (other.artifact == parsed.artifact) = false := by
          rw [beq_eq_false_iff_ne]
          intro same
          exact apart (List.mem_map.mpr ⟨other, inside, same⟩)
        rw [List.lookup_cons, differ]
        exact names.unused other (List.mem_cons_of_mem _ inside)

/-- Compiling a group checks the names of the artifacts and then the constructs of all units. -/
theorem compileGroup_checked (knows : Knows env symbols) (debug : Bool) (units : List ParsedUnit) (artifacts : ArtifactSet) :
    match (compileGroup env debug units artifacts).result with
    | .ok () => FreeNames [] units ∧ ∀ parsed ∈ units, ∀ o ∈ parsed.occurrences, symbols.Right o.locals o.construct
    | .error error => error.cause.kind = .artifact ∧ ¬ FreeNames [] units ∨
        ∃ parsed ∈ units, Blames symbols parsed.name parsed.occurrences error := by
  unfold compileGroup compileInitials
  cases names : checkNames [] units with
  | error error => exact .inl (checkNames_error names)
  | ok _ =>
    have first := initials_checked knows debug units
    have second := groupChecked_mapM (compileUnit_checks knows debug) units
    cases initials : (units.filter (!·.globals.isEmpty)).mapM (initialValues env debug) with
    | error error =>
      rw [initials] at first
      obtain ⟨parsed, inside, blames⟩ := first
      exact .inr ⟨parsed, inside, blames.mono fun o here => List.mem_append_left _ here⟩
    | ok made =>
      rw [initials] at first
      cases bodies : units.mapM (compileUnit env debug) with
      | error error =>
        rw [bodies] at second
        obtain ⟨parsed, inside, blames⟩ := second
        simp only [bind, Except.bind, storeUnits_error bodies]
        exact .inr ⟨parsed, inside, blames.mono fun o here => List.mem_append_right _ here⟩
      | ok compiled =>
        rw [bodies] at second
        simp only [bind, Except.bind, storeUnits_ok bodies]
        obtain ⟨free, distinct, unused⟩ := checkNames_ok names
        exact ⟨⟨free, distinct, unused⟩, fun parsed inside =>
          List.forall_mem_append.mpr ⟨first parsed inside, second parsed inside⟩⟩

end

section
variable {group : String} {natives : List (String × Option Nat)} {brackets : List Script.BracketHandler} {inputs : List Script.Input}
  {units : List ParsedUnit} {env : Environment}

/-- The environment that units are parsed against knows their symbols. -/
theorem parseAll_knows (parsed : (Environment.initial group natives brackets).parseAll inputs = (units, env)) :
    Knows env (Symbols.ofUnits natives units) := by
  have tabulates := Environment.parseAll_tabulates parsed
  refine ⟨fun name => ?_, fun name count => ?_, fun name => ?_⟩
  · simp only [Environment.hasGlobal, Option.isSome_iff_exists, tabulates.global, Symbols.ofUnits, List.mem_flatMap, List.mem_map]
    constructor
    · rintro ⟨_, parsed, inside, -, decl, here, same⟩
      exact ⟨parsed, inside, decl, here, same⟩
    · rintro ⟨parsed, inside, decl, here, same⟩
      exact ⟨_, parsed, inside, rfl, decl, here, same⟩
  · simp only [Option.map_eq_some_iff, tabulates.function, Symbols.ofUnits, List.mem_flatMap, List.mem_map, Prod.mk.injEq]
    constructor
    · rintro ⟨_, ⟨parsed, inside, decl, here, rfl, rfl⟩, rfl⟩
      exact ⟨parsed, inside, decl, here, rfl, rfl⟩
    · rintro ⟨parsed, inside, decl, here, rfl, rfl⟩
      exact ⟨_, ⟨parsed, inside, decl, here, rfl, rfl⟩, rfl⟩
  · rw [Environment.native?, tabulates.kept, Symbols.ofUnits]

/-- A group that follows the rules of scoping compiles, or it fails with an error that reports a limit of the compiler. A group that
does not follow them fails. -/
theorem compiles_if_wellScoped (parsed : (Environment.initial group natives brackets).parseAll inputs = (units, env)) (debug : Bool)
    (artifacts : ArtifactSet) :
    (Script.WellScoped natives units → (compileGroup env debug units artifacts).result = .ok () ∨
      ∃ error, (compileGroup env debug units artifacts).result = .error error ∧ error.cause.kind = .limit) ∧
    (¬ Script.WellScoped natives units → ∃ error, (compileGroup env debug units artifacts).result = .error error) := by
  have checked := compileGroup_checked (parseAll_knows parsed) debug units artifacts
  cases result : (compileGroup env debug units artifacts).result with
  | ok _ =>
    rw [result] at checked
    obtain ⟨names, right⟩ := checked
    exact ⟨fun _ => .inl rfl, fun wrong => absurd ⟨names.free, names.distinct, right⟩ wrong⟩
  | error error =>
    rw [result] at checked
    refine ⟨fun follows => .inr ⟨error, rfl, ?_⟩, fun _ => ⟨error, rfl⟩⟩
    rcases checked with ⟨-, taken⟩ | ⟨unit, inside, -, limit | ⟨o, here, breaks, -⟩⟩
    · exact absurd ⟨follows.free, follows.distinct, fun _ _ => rfl⟩ taken
    · exact limit
    · exact absurd (follows.right unit inside o here) breaks.not_right

/-- A script that declares a name twice. The second declaration ends on a line of its own. -/
def repeatedSource : String := "var a; var a =\na;"

/-- The syntax tree of the script. -/
def repeatedUnit : ParsedUnit :=
  ⟨"a.zs", "a", [], [], [.declare "a" true none 1, .declare "a" true (some (.name "a" 2)) 1]⟩

private theorem repeatedSource_tokens : Script.TokenStream.ofSource repeatedSource =
    ⟨[⟨.keyword .varWord, 1⟩, ⟨.name "a", 1⟩, ⟨.symbol .semicolon, 1⟩, ⟨.keyword .varWord, 1⟩, ⟨.name "a", 1⟩, ⟨.symbol .assign, 1⟩,
      ⟨.name "a", 2⟩, ⟨.symbol .semicolon, 2⟩], .finish 2⟩ := by
  decide +kernel

private theorem repeatedSource_parses :
    (Environment.initial "group" [] []).parseAll [⟨repeatedSource, "a.zs", "a", false⟩] =
      ([repeatedUnit], Environment.initial "group" [] []) := by
  simp only [Environment.parseAll, Environment.parse, repeatedSource_tokens]
  cbv

private theorem repeatedUnit_fails (debug : Bool) :
    (compileGroup (Environment.initial "group" [] []) debug [repeatedUnit] ∅).result = .error ⟨"a.zs", 2, .redeclared "a"⟩ := by
  cases debug <;> cbv

private theorem repeatedUnit_occurrences : repeatedUnit.occurrences =
    [⟨[[]], .declaration "a" none 1⟩, ⟨[[("a", true)]], .read "a" 2⟩,
    ⟨[[("a", true)]], .declaration "a" (some (.name "a" 2)) 1⟩] := rfl

private theorem repeatedUnit_wrong : ¬ Script.WellScoped [] [repeatedUnit] := by
  intro follows
  have right := follows.right repeatedUnit List.mem_cons_self
  rw [repeatedUnit_occurrences] at right
  revert right
  decide

private theorem sampleUnit_wellScoped : Script.WellScoped Simulation.sampleNatives.signatures [Simulation.sampleUnit] :=
  ⟨by decide, by decide, by decide⟩

/-- A group that follows the rules compiles, and one that does not is refused. -/
theorem samples_compile_if_wellScoped :
    let env := (Environment.initial "group" Simulation.sampleNatives.signatures []).declareUnit Simulation.sampleUnit
    (compileGroup env true [Simulation.sampleUnit] ∅).result = .ok () ∧
      ∃ error, (compileGroup (Environment.initial "group" [] []) true [repeatedUnit] ∅).result = .error error := by
  refine ⟨?_, (compiles_if_wellScoped repeatedSource_parses true ∅).2 repeatedUnit_wrong⟩
  rcases (compiles_if_wellScoped Simulation.sampleSource_parses true ∅).1 sampleUnit_wellScoped with compiled | ⟨error, failed, -⟩
  · exact compiled
  · cases Simulation.sampleUnit_compiles.symm.trans failed

/-- An error that is due to a symbol names the unit of a construct that breaks a rule in the way that the error says. Its line is
that of the construct; only where a declaration with an initial value repeats a name, it is the line that was last looked at in
the initial value. -/
theorem symbol_error_names_construct (parsed : (Environment.initial group natives brackets).parseAll inputs = (units, env))
    {debug : Bool} {artifacts : ArtifactSet} {error : CompileError}
    (failed : (compileGroup env debug units artifacts).result = .error error) (symbol : error.cause.kind = .symbol) :
    ∃ unit ∈ units, error.unit = unit.name ∧ ∃ o ∈ unit.occurrences,
      Breaks (Symbols.ofUnits natives units) o.locals o.construct error.cause ∧
      (error.line = o.construct.line ∨
        ∃ name initial line, o.construct = .declaration name (some initial) line ∧ error.line = lastLine line initial) := by
  have checked := compileGroup_checked (parseAll_knows parsed) debug units artifacts
  rw [failed] at checked
  rcases checked with ⟨artifact, -⟩ | ⟨unit, inside, named, limit | ⟨o, here, breaks, line⟩⟩
  · rw [symbol] at artifact
    cases artifact
  · rw [symbol] at limit
    cases limit
  · refine ⟨unit, inside, named, o, here, breaks, ?_⟩
    unfold reported at line
    split at line
    · rename_i name initial own same
      exact .inr ⟨name, initial, own, same, line⟩
    · exact .inl line

/-- The declaration that repeats the name stands on the first line, and so does the other one. The error names the second. -/
theorem repeatedSource_misplaces_error :
    ∃ unit env, (Environment.initial "group" [] []).parseAll [⟨repeatedSource, "a.zs", "a", false⟩] = ([unit], env) ∧
      (compileGroup env false [unit] ∅).result = .error ⟨"a.zs", 2, .redeclared "a"⟩ ∧
      ∀ o ∈ unit.occurrences, Breaks (Symbols.ofUnits [] [unit]) o.locals o.construct (.redeclared "a") → o.construct.line = 1 := by
  refine ⟨_, _, repeatedSource_parses, repeatedUnit_fails false, ?_⟩
  rw [repeatedUnit_occurrences]
  simp only [List.forall_mem_cons, List.not_mem_nil, false_imp_iff, implies_true, and_true]
  exact ⟨fun _ => rfl, (fun breaks => by cases breaks), fun _ => rfl⟩

theorem repeatedSource_names_construct :
    ∃ unit ∈ [repeatedUnit], "a.zs" = unit.name ∧ ∃ o ∈ unit.occurrences,
      Breaks (Symbols.ofUnits [] [repeatedUnit]) o.locals o.construct (.redeclared "a") ∧
      (2 = o.construct.line ∨ ∃ name initial line, o.construct = .declaration name (some initial) line ∧ 2 = lastLine line initial) :=
  symbol_error_names_construct repeatedSource_parses (repeatedUnit_fails false) rfl

end

end Scriptorium.Compile
