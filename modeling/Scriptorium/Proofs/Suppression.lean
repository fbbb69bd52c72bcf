import Scriptorium.Proofs.Contributions
import Scriptorium.Proofs.Tolerance
import Scriptorium.Proofs.UnitIsolation

/-!
# The scope of suppression

Letting the bracket faults of one unit pass matters to the groups with a unit of that name that would fail to parse, and to no
other (`run_suppress`). Two runs are followed side by side, one under some settings and one with the name suppressed as well. All
groups leave hosts that look the same to what comes after, as units are opened and scanned in the same way in both runs and
natives change nothing that is seen. A unit for which the settings differ, and that the first run parses all the same, is parsed
in lockstep (`Environment.parallel`); so a group in which no such unit is lost goes the same way from its first unit to its last
call.

The runs are compared as far as both go. A unit whose bracket faults are let pass may run for ever, and then no later group is
taken.
-/
namespace Scriptorium.Build

open Script (BracketHandler)

theorem Settings.insertName_contains (name unit : String) (names : List String) :
    (insertName name names).contains unit = (names.contains unit || unit == name) := by
  induction names with
  | nil => rw [insertName, List.contains_cons, Bool.or_comm]
  | cons other names ih =>
    rw [insertName]
    split
    · rw [List.contains_cons, Bool.or_comm]
    · split
      next same =>
        subst same
        rw [List.contains_cons, Bool.or_right_comm, Bool.or_self]
      next => rw [List.contains_cons, List.contains_cons, ih, Bool.or_assoc]

/-- Suppressing a name lets bracket faults pass in the units of exactly this name besides. -/
theorem Settings.suppress_suppresses (settings : Settings) (name unit : String) :
    (settings.suppress name).suppresses unit = (settings.suppresses unit || unit == name) :=
  insertName_contains name unit settings.suppressed

section
variable {σ ω : Type} {view : σ → ω}

theorem Preprocessor.directives_respects (unit : String) (stream : Stream) :
    Respects (SameView view) (Preprocessor.directives.scan unit stream) := by
  intro host host' alike
  simp only [directives]
  cases (Build.scan unit stream).1 with
  | ok directives | error error => exact ⟨_, _, _, rfl, rfl, alike⟩

/-- A backend that leaves as it is what is seen of the host. -/
structure Backend.Discreet (view : σ → ω) (backend : Backend (Host σ)) : Prop where
  compile : ∀ units env debug host, SameView view host (backend.compile units env debug host).2
  execute : ∀ artifacts host attempt after, backend.execute artifacts host = some (attempt, after) → SameView view host after

namespace ScriptHost

variable {parts : ScriptHost σ}

private theorem parse_view (request : ParseRequest) (env : Script.Environment) (host : Host σ) :
    SameView view host (parse request env host).2.2 := by
  obtain ⟨attempt, next, after, parsed, unseen, -⟩ := parse_cases request env host
  rw [parsed]
  exact unseen.state.symm

private theorem compile_view (units : List Script.ParsedUnit) (env : Script.Environment) (debug : Bool) (host : Host σ) :
    SameView view host (compile units env debug host).2 := by
  simp only [compile]
  cases (Compile.compileGroup env debug units ∅).result with
  | error error | ok done => exact rfl

/-- What scripts do is not seen. -/
theorem execute_view (natives : parts.natives.Keep view) {artifacts : ArtifactSet} {host after : Host σ}
    {attempt : Attempt String Unit} (executed : parts.execute artifacts host = some (attempt, after)) :
    SameView view host after := by
  have begun : Holding (SameView view host) host host := ⟨rfl, rfl⟩
  have same : Option.Rel (SameAnswer (Holding (SameView view host))) (parts.execute artifacts host)
      (parts.execute artifacts host) := execute_like parts (natives.holding host) artifacts begun
  rw [executed] at same
  cases same with
  | some same =>
    obtain ⟨_, last, _, here, -, -, alike⟩ := same
    obtain ⟨rfl, rfl⟩ := Prod.mk.inj here
    exact alike

/-- The backend of the script language leaves as it is what is seen of the host. -/
theorem backend_discreet (natives : parts.natives.Keep view) : parts.backend.Discreet view where
  compile := compile_view
  execute _ _ _ _ := execute_view natives

end ScriptHost

end

/-! ## Units side by side -/

section
variable {σ ω : Type} {view : σ → ω} {parts : ScriptHost σ} {preprocessor : Preprocessor (Host σ)} {settings : Settings}
  {loader name : String} {unit : ScriptUnit (Host σ)} {env env' : Script.Environment} {host host' : Host σ}

/-- Where parsing comes to no parse error, letting bracket faults pass makes no difference. -/
theorem parse_tolerated (stream : Stream) (unit artifact : String) (env : Script.Environment) (host host' : Host σ)
    (spared : ∀ file line explanation,
      (ScriptHost.parse ⟨stream, unit, artifact, false⟩ env host).1 ≠ .refused (.parse file line explanation)) :
    (ScriptHost.parse ⟨stream, unit, artifact, true⟩ env host').1 =
        (ScriptHost.parse ⟨stream, unit, artifact, false⟩ env host).1 ∧
      (ScriptHost.parse ⟨stream, unit, artifact, true⟩ env host').2.1 =
        (ScriptHost.parse ⟨stream, unit, artifact, false⟩ env host).2.1 := by
  unfold ScriptHost.parse at spared ⊢
  cases stream with
  | error error => exact ⟨rfl, rfl⟩
  | ok bytes =>
    simp only [Script.Environment.parseBytes] at spared ⊢
    cases decoded : Text.Utf8.decode bytes with
    | error fault => exact ⟨rfl, rfl⟩
    | ok source =>
      simp only [decoded] at spared ⊢
      cases Script.Environment.parallel env source unit artifact with
      | same _ same _ =>
        rw [same]
        cases (env.parse source unit artifact false).result with
        | ok parsed | error error => exact ⟨rfl, rfl⟩
      | fault line fault stopped later run _ =>
        rw [Script.Environment.parse_error run] at spared
        exact absurd rfl (spared _ _ _)

/-- Tolerating the bracket faults of the units of one name besides makes a difference to units of that name only, where parsing
comes to a parse error. -/
theorem parse_named (stream : Stream) (unit artifact name : String) (tolerant : Bool) (env : Script.Environment)
    (host host' : Host σ)
    (spared : unit = name → ∀ file line explanation,
      (ScriptHost.parse ⟨stream, unit, artifact, tolerant⟩ env host).1 ≠ .refused (.parse file line explanation)) :
    (ScriptHost.parse ⟨stream, unit, artifact, tolerant || unit == name⟩ env host').1 =
        (ScriptHost.parse ⟨stream, unit, artifact, tolerant⟩ env host).1 ∧
      (ScriptHost.parse ⟨stream, unit, artifact, tolerant || unit == name⟩ env host').2.1 =
        (ScriptHost.parse ⟨stream, unit, artifact, tolerant⟩ env host).2.1 := by
  by_cases changed : tolerant = false ∧ unit = name
  · obtain ⟨rfl, named⟩ := changed
    rw [beq_iff_eq.mpr named, Bool.or_true]
    exact parse_tolerated stream unit artifact env host host' (spared named)
  · have same : (tolerant || unit == name) = tolerant := by
      cases given : tolerant with
      | true => rfl
      | false => exact beq_false_of_ne fun named => changed ⟨given, named⟩
    have alike : SameView (fun _ => ()) host host' := rfl
    obtain ⟨attempt, next, _, _, here, there, -⟩ :=
      ScriptHost.parse_like SameView.reporting ⟨stream, unit, artifact, tolerant⟩ env alike
    rw [same, here, there]
    exact ⟨rfl, rfl⟩

/-- What two runs make of a unit: they leave hosts that look the same; and from one environment they come to the same, unless the
unit has the name that the second run suppresses and is lost to a parse error in the first. -/
structure Abreast {α : Type} (view : σ → ω) (unit name : String) (env env' : Script.Environment)
    (answer answer' : Except UnitError α × Script.Environment × Host σ) : Prop where
  host : SameView view answer.2.2 answer'.2.2
  same : env = env' → (unit = name → ∀ file line explanation, answer.1 ≠ .error (.parse file line explanation)) →
    answer'.1 = answer.1 ∧ answer'.2.1 = answer.2.1

private theorem parseUnit_abreast (opens : Respects (SameView view) unit.openStream) (directives : Directives)
    (alike : SameView view host host') :
    Abreast view unit.name name env env' ((parts.pipeline preprocessor settings loader).parseUnit unit directives env host)
      ((parts.pipeline preprocessor (settings.suppress name) loader).parseUnit unit directives env' host') := by
  obtain ⟨opened, after, after', opening, opening', alike⟩ := Pipeline.openUnit_respects opens host host' alike
  unfold Pipeline.parseUnit
  rw [opening, opening']
  cases opened with
  | error error => exact ⟨alike, fun same _ => ⟨rfl, same.symm⟩⟩
  | ok stream =>
    let tolerant := directives.ignoreBracketErrors || settings.suppresses unit.name
    let tolerant' := directives.ignoreBracketErrors || (settings.suppress name).suppresses unit.name
    have more : tolerant' = (tolerant || unit.name == name) := by
      simp only [tolerant', tolerant, Settings.suppress_suppresses, Bool.or_assoc]
    let answer := ScriptHost.parse ⟨stream, unit.name, artifactName unit.name, tolerant⟩ env after
    let answer' := ScriptHost.parse ⟨stream, unit.name, artifactName unit.name, tolerant'⟩ env' after'
    show Abreast view unit.name name env env' (forUnit unit.name (FrontError.toUnitError unit.name) answer.1, answer.2)
      (forUnit unit.name (FrontError.toUnitError unit.name) answer'.1, answer'.2)
    refine ⟨((ScriptHost.parse_view _ _ _).symm.trans alike).trans (ScriptHost.parse_view _ _ _), ?_⟩
    rintro rfl spared
    have same : answer'.1 = answer.1 ∧ answer'.2.1 = answer.2.1 := by
      simp only [answer', more]
      refine parse_named stream unit.name (artifactName unit.name) name tolerant env after after' ?_
      intro named file line explanation refused
      exact spared named file line explanation (congrArg (forUnit unit.name (FrontError.toUnitError unit.name)) refused)
    exact ⟨congrArg (forUnit unit.name (FrontError.toUnitError unit.name)) same.1, same.2⟩

private theorem processUnit_abreast (respects : (parts.pipeline preprocessor settings loader).Respects (SameView view))
    (opens : Respects (SameView view) unit.openStream) (alike : SameView view host host') :
    Abreast view unit.name name env env' ((parts.pipeline preprocessor settings loader).processUnit unit env host)
      ((parts.pipeline preprocessor (settings.suppress name) loader).processUnit unit env' host') := by
  let pipeline := parts.pipeline preprocessor settings loader
  let pipeline' := parts.pipeline preprocessor (settings.suppress name) loader
  have scanned : SameAnswer (SameView view) (pipeline.scanUnit unit host) (pipeline'.scanUnit unit host') :=
    Pipeline.scanUnit_respects respects.building opens host host' alike
  have reasons : ∀ directives, pipeline'.skipReason? directives = pipeline.skipReason? directives := fun _ => rfl
  obtain ⟨scanned, between, between', scanning, scanning', alike⟩ := scanned
  unfold Pipeline.processUnit
  rw [scanning, scanning']
  cases scanned with
  | error error => exact ⟨alike, fun same _ => ⟨rfl, same.symm⟩⟩
  | ok directives =>
    simp only [pipeline, pipeline'] at reasons
    simp only [reasons]
    cases (parts.pipeline preprocessor settings loader).skipReason? directives with
    | some reason => exact ⟨alike, fun same _ => ⟨rfl, same.symm⟩⟩
    | none =>
      have parsed : Abreast view unit.name name env env'
          ((parts.pipeline preprocessor settings loader).parseUnit unit directives env between)
          ((parts.pipeline preprocessor (settings.suppress name) loader).parseUnit unit directives env' between') :=
        parseUnit_abreast opens directives alike
      simp only
      generalize (parts.pipeline preprocessor settings loader).parseUnit unit directives env between = answer at parsed ⊢
      generalize (parts.pipeline preprocessor (settings.suppress name) loader).parseUnit unit directives env' between' = answer'
        at parsed ⊢
      obtain ⟨result, next, last⟩ := answer
      obtain ⟨result', next', last'⟩ := answer'
      refine ⟨parsed.host, ?_⟩
      intro same spared
      have spare : unit.name = name → ∀ file line explanation, result ≠ .error (.parse file line explanation) := by
        rintro named file line explanation rfl
        exact spared named file line explanation rfl
      obtain ⟨sameResult, sameEnv⟩ := parsed.same same spare
      exact ⟨congrArg (Except.map _) sameResult, sameEnv⟩

/-- The same work done on a group under some settings and with a name suppressed besides. -/
structure Alongside (view : σ → ω) (progress : Pipeline.Progress (parts.pipeline preprocessor settings loader))
    (progress' : Pipeline.Progress (parts.pipeline preprocessor (settings.suppress name) loader)) : Prop where
  parsed : progress'.parsed = progress.parsed
  debug : progress'.debug = progress.debug
  env : progress'.env = progress.env
  host : SameView view progress.host progress'.host

/-- Whether a unit is lost to no parse error, if it has some name. -/
def Spared (name : String) (unit : String) (ended : UnitEnd) : Prop :=
  unit = name → ∀ file line explanation, ended ≠ .failed (.parse file line explanation)

/-- Apart from what processing a unit does, a unit is only reported. -/
theorem addUnit_view (progress : Pipeline.Progress (parts.pipeline preprocessor settings loader)) (unit : ScriptUnit (Host σ)) :
    SameView view ((parts.pipeline preprocessor settings loader).processUnit unit progress.env progress.host).2.2
      ((parts.pipeline preprocessor settings loader).addUnit progress unit).host := by
  unfold Pipeline.addUnit
  obtain ⟨result, next, after⟩ := (parts.pipeline preprocessor settings loader).processUnit unit progress.env progress.host
  match result with
  | .ok (.parsed parsed debug) | .ok (.skipped reason) | .error error => exact rfl

section
variable {progress : Pipeline.Progress (parts.pipeline preprocessor settings loader)}
  {progress' : Pipeline.Progress (parts.pipeline preprocessor (settings.suppress name) loader)}

private theorem addUnit_hosts (respects : (parts.pipeline preprocessor settings loader).Respects (SameView view))
    (opens : Respects (SameView view) unit.openStream) (alike : SameView view progress.host progress'.host) :
    SameView view ((parts.pipeline preprocessor settings loader).addUnit progress unit).host
      ((parts.pipeline preprocessor (settings.suppress name) loader).addUnit progress' unit).host := by
  have abreast : Abreast view unit.name name progress.env progress'.env _ _ := processUnit_abreast respects opens alike
  exact ((addUnit_view progress unit).symm.trans abreast.host).trans (addUnit_view progress' unit)

private theorem addUnit_alongside (respects : (parts.pipeline preprocessor settings loader).Respects (SameView view))
    (opens : Respects (SameView view) unit.openStream) (alongside : Alongside view progress progress')
    (spared : Spared name unit.name
      (.of ((parts.pipeline preprocessor settings loader).processUnit unit progress.env progress.host).1)) :
    Alongside view ((parts.pipeline preprocessor settings loader).addUnit progress unit)
        ((parts.pipeline preprocessor (settings.suppress name) loader).addUnit progress' unit) ∧
      UnitEnd.of ((parts.pipeline preprocessor (settings.suppress name) loader).processUnit unit progress'.env progress'.host).1 =
        UnitEnd.of ((parts.pipeline preprocessor settings loader).processUnit unit progress.env progress.host).1 := by
  have hosts : SameView view ((parts.pipeline preprocessor settings loader).addUnit progress unit).host
      ((parts.pipeline preprocessor (settings.suppress name) loader).addUnit progress' unit).host :=
    addUnit_hosts respects opens alongside.host
  have abreast : Abreast view unit.name name progress.env progress'.env _ _ := processUnit_abreast respects opens alongside.host
  obtain ⟨parsed, debug, env, report, host⟩ := progress
  obtain ⟨parsed', debug', env', report', host'⟩ := progress'
  obtain ⟨rfl, rfl, rfl, alike⟩ := alongside
  simp only [Pipeline.addUnit] at hosts ⊢
  generalize (parts.pipeline preprocessor settings loader).processUnit unit env' host = answer at *
  generalize (parts.pipeline preprocessor (settings.suppress name) loader).processUnit unit env' host' = answer' at *
  obtain ⟨result, next, after⟩ := answer
  obtain ⟨result', next', after'⟩ := answer'
  have spare : unit.name = name → ∀ file line explanation, result ≠ .error (.parse file line explanation) := by
    rintro named file line explanation rfl
    exact spared named file line explanation rfl
  obtain ⟨rfl, rfl⟩ : result' = result ∧ next' = next := abreast.same rfl spare
  refine ⟨?_, rfl⟩
  rcases result' with error | (⟨made, wanted⟩ | reason)
  all_goals exact ⟨rfl, rfl, rfl, hosts⟩

private theorem units_hosts (respects : (parts.pipeline preprocessor settings loader).Respects (SameView view))
    {units : List (ScriptUnit (Host σ))} (opens : ∀ unit ∈ units, Respects (SameView view) unit.openStream)
    (alike : SameView view progress.host progress'.host) :
    SameView view (units.foldl (Pipeline.addUnit (parts.pipeline preprocessor settings loader)) progress).host
      (units.foldl (Pipeline.addUnit (parts.pipeline preprocessor (settings.suppress name) loader)) progress').host := by
  induction units generalizing progress progress' with
  | nil => exact alike
  | cons unit units ih =>
    obtain ⟨first, rest⟩ := List.forall_mem_cons.mp opens
    exact ih rest (addUnit_hosts respects first alike)

private theorem units_alongside (respects : (parts.pipeline preprocessor settings loader).Respects (SameView view))
    {units : List (ScriptUnit (Host σ))} (opens : ∀ unit ∈ units, Respects (SameView view) unit.openStream)
    (alongside : Alongside view progress progress')
    (spared : ∀ both ∈ units.zip (Pipeline.unitEnds _ progress units), Spared name both.1.name both.2) :
    Alongside view (units.foldl (Pipeline.addUnit (parts.pipeline preprocessor settings loader)) progress)
        (units.foldl (Pipeline.addUnit (parts.pipeline preprocessor (settings.suppress name) loader)) progress') ∧
      Pipeline.unitEnds _ progress' units = Pipeline.unitEnds _ progress units := by
  induction units generalizing progress progress' with
  | nil => exact ⟨alongside, rfl⟩
  | cons unit units ih =>
    obtain ⟨first, rest⟩ := List.forall_mem_cons.mp opens
    rw [Pipeline.unitEnds, List.zip_cons_cons] at spared
    obtain ⟨here, later⟩ := List.forall_mem_cons.mp spared
    obtain ⟨alongside, same⟩ := addUnit_alongside respects first alongside here
    obtain ⟨alongside, others⟩ := ih rest alongside later
    refine ⟨alongside, ?_⟩
    rw [Pipeline.unitEnds, Pipeline.unitEnds, same, others]

end

end

namespace Contribution

variable {σ : Type}

/-- No unit of a name is lost to a parse error. This is so where the group has no unit of that very name, and where its units of
that name are parsed, are left out by a directive, or fail for another reason. -/
def Spares (name : String) (contribution : Contribution σ) : Prop :=
  ∀ both ∈ contribution.group.units.zip contribution.units, Spared name both.1.name both.2

private theorem spares_of_absent {name : String} {contribution : Contribution σ}
    (absent : ∀ unit ∈ contribution.group.units, unit.name ≠ name) : contribution.Spares name := by
  rintro ⟨unit, ended⟩ inside named
  exact absurd named (absent unit (List.of_mem_zip inside).1)

end Contribution

namespace Pipeline

variable {σ ω : Type} {view : σ → ω} {pipeline : Pipeline σ} {execute : Bool}

/-- Neither compiling nor executing a group is seen. -/
theorem compileAndExecute_view (discreet : pipeline.backend.Discreet view) {group : String} {progress : Progress pipeline}
    {result : Except GroupError Unit} {after : Host σ}
    (finished : pipeline.compileAndExecute group execute progress = some (result, after)) :
    SameView view progress.host after := by
  unfold compileAndExecute at finished
  have compiled := discreet.compile progress.parsed.reverse progress.env progress.debug progress.host
  obtain ⟨attempt, between⟩ := pipeline.backend.compile progress.parsed.reverse progress.env progress.debug progress.host
  simp only at compiled finished
  split at finished
  next =>
    cases finished
    exact compiled
  next artifacts _ =>
    split at finished
    next =>
      obtain ⟨⟨attempt, last⟩, executed, same⟩ := Option.map_eq_some_iff.mp finished
      cases same
      exact compiled.trans (discreet.execute _ _ _ _ executed)
    next =>
      cases finished
      exact compiled

private theorem finishGroup_view (discreet : pipeline.backend.Discreet view) {group : String} {progress : Progress pipeline}
    {report : Report} {after : Host σ} (finished : finishGroup pipeline group execute progress = .going report after) :
    SameView view progress.host after := by
  unfold finishGroup at finished
  split at finished
  next => cases finished
  next last done =>
    cases finished
    exact compileAndExecute_view discreet done
  next error last done =>
    cases finished
    have seen : SameView view progress.host last := compileAndExecute_view discreet done
    exact seen

end Pipeline

section
variable {σ ω : Type} {view : σ → ω} {parts : ScriptHost σ} {preprocessor : Preprocessor (Host σ)} {settings : Settings}
  {loader name : String} {execute : Bool} {report report' : Report} {host host' : Host σ}

/-- Whatever a group comes to in two runs, it leaves hosts that look the same. -/
theorem buildGroup_hosts (natives : parts.natives.Steady view)
    (respects : (parts.pipeline preprocessor settings loader).Respects (SameView view)) {group : ScriptGroup (Host σ)}
    (opens : ∀ unit ∈ group.units, Respects (SameView view) unit.openStream) (alike : SameView view host host')
    {next next' : Report} {after after' : Host σ}
    (built : (parts.pipeline preprocessor settings loader).buildGroup group execute report host = .going next after)
    (built' : (parts.pipeline preprocessor (settings.suppress name) loader).buildGroup group execute report' host' =
      .going next' after') : SameView view after after' := by
  have begun : SameView view (parts.outset preprocessor settings loader group.name report host).host
    (parts.outset preprocessor (settings.suppress name) loader group.name report' host').host := alike
  have units : SameView view _ _ := units_hosts respects opens begun
  rw [Pipeline.buildGroup_eq, ScriptHost.pipeline_newEnvironment] at built built'
  have finished : SameView view _ after := Pipeline.finishGroup_view (ScriptHost.backend_discreet natives.keep) built
  have finished' : SameView view _ after' := Pipeline.finishGroup_view (ScriptHost.backend_discreet natives.keep) built'
  exact (finished.symm.trans units).trans finished'

/-- The same work on a group is compiled and executed in the same way. -/
theorem Alongside.finish {done : Pipeline.Progress (parts.pipeline preprocessor settings loader)}
    {done' : Pipeline.Progress (parts.pipeline preprocessor (settings.suppress name) loader)}
    (alongside : Alongside view done done')
    (respects : (parts.pipeline preprocessor settings loader).Respects (SameView view)) (group : String) (execute : Bool) :
    ((parts.pipeline preprocessor (settings.suppress name) loader).compileAndExecute group execute done').map Prod.fst =
        ((parts.pipeline preprocessor settings loader).compileAndExecute group execute done).map Prod.fst ∧
      SameAnswer (SameView view) (ScriptHost.compile done.parsed.reverse done.env done.debug done.host)
        (ScriptHost.compile done'.parsed.reverse done'.env done'.debug done'.host) := by
  obtain ⟨parsed, debug, env, report, host⟩ := done
  obtain ⟨parsed', debug', env', report', host'⟩ := done'
  obtain ⟨rfl, rfl, rfl, alike⟩ := alongside
  -- after its units the work on a group does not depend on the settings
  let work : Pipeline.Progress (parts.pipeline preprocessor settings loader) := ⟨parsed', debug', env', report, host⟩
  let work' : Pipeline.Progress (parts.pipeline preprocessor settings loader) := ⟨parsed', debug', env', report', host'⟩
  have same : work.Like (fun _ _ => True) (SameView view) work' := ⟨rfl, rfl, rfl, trivial, alike⟩
  exact ⟨SameAnswer.map_fst (Pipeline.compileAndExecute_like respects group execute same),
    ScriptHost.compile_respects SameView.reporting parsed'.reverse env' debug' host host' alike⟩

/-- A group in which no unit of the name is lost to a parse error contributes the same. -/
theorem contribution_spared (natives : parts.natives.Respect (SameView view))
    (respects : (parts.pipeline preprocessor settings loader).Respects (SameView view)) {group : ScriptGroup (Host σ)}
    (opens : ∀ unit ∈ group.units, Respects (SameView view) unit.openStream) (alike : SameView view host host')
    (spares : (parts.contribution preprocessor settings loader group execute report host).Spares name) :
    parts.contribution preprocessor (settings.suppress name) loader group execute report' host' =
      parts.contribution preprocessor settings loader group execute report host := by
  let pipeline := parts.pipeline preprocessor settings loader
  let pipeline' := parts.pipeline preprocessor (settings.suppress name) loader
  let start := parts.outset preprocessor settings loader group.name report host
  let start' := parts.outset preprocessor (settings.suppress name) loader group.name report' host'
  obtain ⟨alongside, units⟩ :
      Alongside view (group.units.foldl pipeline.addUnit start) (group.units.foldl pipeline'.addUnit start') ∧
      pipeline'.unitEnds start' group.units = pipeline.unitEnds start group.units :=
    units_alongside respects opens ⟨rfl, rfl, rfl, alike⟩ spares
  obtain ⟨result, compiled⟩ := alongside.finish respects group.name execute
  exact contributionOf_like natives group units result compiled

end

section
variable {σ ω : Type} {view : σ → ω} {parts : ScriptHost σ} {preprocessor : Preprocessor (Host σ)} {settings : Settings}
  {loader name : String} {execute : Bool} {seen : List String} {report report' : Report} {host host' : Host σ}

/-- What a group contributes to two runs, the second of which suppresses a name besides: the same, if the first does not lose a
unit of that name to a parse error; in particular if the group has no unit of exactly that name. -/
structure Contribution.ScopedTo (name : String) (first second : Contribution σ) : Prop where
  group : second.group = first.group
  spared : first.Spares name → second = first
  absent : (∀ unit ∈ first.group.units, unit.name ≠ name) → second = first

private theorem contributions_suppress (natives : parts.natives.Steady view)
    (respects : (parts.pipeline preprocessor settings loader).Respects (SameView view)) {groups : List (ScriptGroup (Host σ))}
    (opens : ∀ group ∈ groups, ∀ unit ∈ group.units, Respects (SameView view) unit.openStream)
    (alike : SameView view host host') :
    ∀ both ∈ (parts.contributions preprocessor settings loader execute seen report host groups).zip
      (parts.contributions preprocessor (settings.suppress name) loader execute seen report' host' groups),
      both.1.ScopedTo name both.2 := by
  induction groups generalizing seen report report' host host' with
  | nil => exact fun _ inside => absurd inside List.not_mem_nil
  | cons group groups ih =>
    obtain ⟨here, rest⟩ := List.forall_mem_cons.mp opens
    by_cases before : group.name ∈ seen
    · rw [contributions_cons_seen before, contributions_cons_seen before]
      exact ih rest alike
    · have begun : SameView view (host.report .info .pipeline (Pipeline.loadingMessage group.name))
        (host'.report .info .pipeline (Pipeline.loadingMessage group.name)) := alike
      rw [contributions_cons_fresh before, contributions_cons_fresh before, List.zip_cons_cons, List.forall_mem_cons]
      have spared (spares : (parts.contribution preprocessor settings loader group execute report
          (host.report .info .pipeline (Pipeline.loadingMessage group.name))).Spares name) :
          parts.contribution preprocessor (settings.suppress name) loader group execute report'
            (host'.report .info .pipeline (Pipeline.loadingMessage group.name)) = _ :=
        contribution_spared natives.respect respects here begun spares
      refine ⟨⟨rfl, spared, fun absent => spared (Contribution.spares_of_absent absent)⟩, ?_⟩
      split
      next next after built =>
        split
        next next' after' built' => exact ih rest (buildGroup_hosts natives respects here begun built built')
        next =>
          rw [List.zip_nil_right]
          exact fun _ inside => absurd inside List.not_mem_nil
      next => exact fun _ inside => absurd inside List.not_mem_nil

/-- A name that is suppressed besides makes no difference to what a group contributes to a run, unless it loses a unit of exactly
that name to a parse error. -/
theorem run_suppress (natives : parts.natives.Steady view)
    (scans : ∀ unit stream, Respects (SameView view) (preprocessor.scan unit stream)) {source : Source (Host σ)}
    {groups : List (ScriptGroup (Host σ))} (listed : source.groups.result = .ok groups)
    (opens : ∀ group ∈ groups, ∀ unit ∈ group.units, Respects (SameView view) unit.openStream)
    (settings : Settings) (loader name : String) (execute : Bool) (host : Host σ) :
    let first := parts.contributionsTo preprocessor settings loader execute source groups host
    let second := parts.contributionsTo preprocessor (settings.suppress name) loader execute source groups host
    Contributed ((parts.pipeline preprocessor settings loader).run source execute host) groups first ∧
      Contributed ((parts.pipeline preprocessor (settings.suppress name) loader).run source execute host) groups second ∧
      ∀ both ∈ first.zip second, both.1.ScopedTo name both.2 := by
  have respects : (parts.pipeline preprocessor settings loader).Respects (SameView view) :=
    ⟨SameView.reporting, ScriptHost.backend_respects parts SameView.reporting natives.respect, scans⟩
  exact ⟨run_contributed listed, run_contributed listed, contributions_suppress natives respects opens rfl⟩

end

/-- Parts with natives that change the content, but do not look at it. -/
def blindParts : ScriptHost ContentStore :=
  ⟨Natives.standard.register "define" ContentStore.define, BracketHandler.defaultNamespaces.map .ofNamespace, 1000⟩

private theorem blindParts_steady : blindParts.natives.Steady fun _ => () :=
  (Natives.steady_empty.register Native.steady_print).register ContentStore.steady_define

/-- A bracket that stands for nothing, in a unit of the name `a.zs`, in one of nearly that name, and in one of that name that is
left out. -/
def faultyGroups : List (ScriptGroup (Host ContentStore)) :=
  [("first.zip", [("a.zs", "define(\"k\", <gas:oxygen>);"), ("b.zs", "define(\"k\", 1);")]),
    ("second.zip", [("A.zs", "define(\"k\", <gas:oxygen>);"), ("b.zs", "global k = <ore:tin>;\nprint(k);")]),
    ("third.zip", [("a.zs", "#norun\ndefine(\"k\", <gas:oxygen>);"), ("b.zs", "define(\"k\", 3);")])].map fun (name, scripts) =>
      ⟨name, scripts.map fun (unit, text) => .ofBytes unit text.toUTF8.toList⟩

private theorem faultyGroups_opens :
    ∀ group ∈ faultyGroups, ∀ unit ∈ group.units, Respects (SameView fun _ => ()) unit.openStream := by
  intro group inside unit here
  obtain ⟨⟨name, scripts⟩, -, rfl⟩ := List.mem_map.mp inside
  obtain ⟨⟨unit, text⟩, -, rfl⟩ := List.mem_map.mp here
  exact fun _ _ alike => ⟨_, _, _, rfl, rfl, alike⟩

theorem faultyGroups_run_suppress :
    let source := Source.ofGroups faultyGroups
    let settings := Settings.initial.suppress "a.zs"
    let first := blindParts.contributionsTo .directives .initial "tweaker" true source faultyGroups (.initial ∅)
    let second := blindParts.contributionsTo .directives settings "tweaker" true source faultyGroups (.initial ∅)
    Contributed ((blindParts.pipeline .directives .initial "tweaker").run source true (.initial ∅)) faultyGroups first ∧
      Contributed ((blindParts.pipeline .directives settings "tweaker").run source true (.initial ∅)) faultyGroups second ∧
      ∀ both ∈ first.zip second, both.1.ScopedTo "a.zs" both.2 :=
  run_suppress blindParts_steady Preprocessor.directives_respects rfl faultyGroups_opens .initial "tweaker" "a.zs" true
    (.initial ∅)

end Scriptorium.Build
