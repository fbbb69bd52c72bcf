import Mathlib
import Scriptorium.Build.ScriptBackend
import Scriptorium.Proofs.Likeness

/-!
# Likeness of builds

A pipeline whose collaborators respect a likeness of hosts respects it as a whole: the same groups, built from like hosts,
come to the same end and leave like hosts (`Pipeline.buildGroups_like`). The two builds may start from different reports.
-/
namespace Scriptorium.Build

namespace Report

/-- Two reports in one: the failures of the first and then those of the second, and the counts added. -/
def add (report next : Report) : Report :=
  { failures := report.failures ++ next.failures
    groupsBuilt := report.groupsBuilt + next.groupsBuilt
    groupsSkipped := report.groupsSkipped + next.groupsSkipped
    unitsParsed := report.unitsParsed + next.unitsParsed
    unitsSkipped := report.unitsSkipped + next.unitsSkipped }

variable (report next : Report)

@[simp] theorem add_empty : report.add empty = report := by
  simp only [add, empty, List.append_nil, Nat.add_zero]

@[simp] theorem empty_add : empty.add report = report := by
  simp only [add, empty, List.nil_append, Nat.zero_add]

theorem add_assoc (last : Report) : (report.add next).add last = report.add (next.add last) := by
  simp only [add, List.append_assoc, Nat.add_assoc]

end Report

/-- Reports that stay related when the same is added to both. -/
def Adding (reports : Report → Report → Prop) : Prop :=
  ∀ report report' gain, reports report report' → reports (report.add gain) (report'.add gain)

namespace Adding

variable {reports : Report → Report → Prop} {report report' : Report}

theorem record (adding : Adding reports) (related : reports report report') (failure : Failure) :
    reports (report.record failure) (report'.record failure) :=
  adding report report' ⟨[failure], 0, 0, 0, 0⟩ related

theorem countBuilt (adding : Adding reports) (related : reports report report') :
    reports report.countBuilt report'.countBuilt := by
  simpa [Report.add, Report.countBuilt] using adding report report' ⟨[], 1, 0, 0, 0⟩ related

theorem countDuplicate (adding : Adding reports) (related : reports report report') :
    reports report.countDuplicate report'.countDuplicate := by
  simpa [Report.add, Report.countDuplicate] using adding report report' ⟨[], 0, 1, 0, 0⟩ related

theorem countParsed (adding : Adding reports) (related : reports report report') :
    reports report.countParsed report'.countParsed := by
  simpa [Report.add, Report.countParsed] using adding report report' ⟨[], 0, 0, 1, 0⟩ related

theorem countSkipped (adding : Adding reports) (related : reports report report') :
    reports report.countSkipped report'.countSkipped := by
  simpa [Report.add, Report.countSkipped] using adding report report' ⟨[], 0, 0, 0, 1⟩ related

end Adding

/-- A backend that does the same on like hosts. -/
structure Backend.Respects {η : Type} (like : η → η → Prop) (backend : Backend η) : Prop where
  newEnvironment : ∀ group, Scriptorium.Respects like (backend.newEnvironment group)
  parse : ∀ request env host host', like host host' →
    ∃ attempt next after after', backend.parse request env host = (attempt, next, after) ∧
      backend.parse request env host' = (attempt, next, after') ∧ like after after'
  compile : ∀ units env debug, Scriptorium.Respects like (backend.compile units env debug)
  execute : ∀ artifacts host host', like host host' →
    Option.Rel (SameAnswer like) (backend.execute artifacts host) (backend.execute artifacts host')

/-- A pipeline that reports and uses its collaborators in the same way on like hosts. -/
structure Pipeline.Respects {σ : Type} (like : Host σ → Host σ → Prop) (pipeline : Pipeline σ) : Prop where
  reporting : Reporting like
  backend : pipeline.backend.Respects like
  scan : ∀ unit stream, Scriptorium.Respects like (pipeline.preprocessor.scan unit stream)

/-- A pipeline that does the same on like hosts as long as it does not execute. -/
structure Pipeline.RespectsBuilding {σ : Type} (like : Host σ → Host σ → Prop) (pipeline : Pipeline σ) : Prop where
  reporting : Reporting like
  newEnvironment : ∀ group, Scriptorium.Respects like (pipeline.backend.newEnvironment group)
  scan : ∀ unit stream, Scriptorium.Respects like (pipeline.preprocessor.scan unit stream)
  parse : ∀ request env host host', like host host' →
    ∃ attempt next after after', pipeline.backend.parse request env host = (attempt, next, after) ∧
      pipeline.backend.parse request env host' = (attempt, next, after') ∧ like after after'
  compile : ∀ units env debug, Scriptorium.Respects like (pipeline.backend.compile units env debug)

theorem Pipeline.Respects.building {σ : Type} {like : Host σ → Host σ → Prop} {pipeline : Pipeline σ}
    (respects : pipeline.Respects like) : pipeline.RespectsBuilding like where
  reporting := respects.reporting
  newEnvironment := respects.backend.newEnvironment
  scan := respects.scan
  parse := respects.backend.parse
  compile := respects.backend.compile

section
variable {σ : Type} {like : Host σ → Host σ → Prop}

/-- Scanning for directives only reports what it finds. -/
theorem Preprocessor.directives_sees {ω : Type} {view : σ → ω} (unit : String) (stream : Stream) :
    Sees view (Preprocessor.directives.scan unit stream) := by
  intro host host' actions state
  simp only [directives]
  cases (Build.scan unit stream).1 with
  | ok directives => exact sees_report _ _ host host' actions state
  | error error => exact sees_report _ _ host host' actions state

namespace ScriptHost

variable (parts : ScriptHost σ)

theorem parse_like (reporting : Reporting like) (request : ParseRequest) (env : Script.Environment) {host host' : Host σ}
    (alike : like host host') :
    ∃ attempt next after after', parse request env host = (attempt, next, after) ∧
      parse request env host' = (attempt, next, after') ∧ like after after' := by
  unfold parse
  cases request.stream with
  | error error => exact ⟨_, _, _, _, rfl, rfl, alike⟩
  | ok bytes =>
    cases parsing : env.parseBytes bytes request.unit request.artifact request.tolerant with
    | none =>
      simp only [parsing]
      exact ⟨_, _, _, _, rfl, rfl, alike⟩
    | some parsed =>
      simp only [parsing]
      cases parsed.result with
      | ok unit | error error => exact ⟨_, _, _, _, rfl, rfl, reporting _ _ _ alike⟩

theorem compile_respects (reporting : Reporting like) (units : List Script.ParsedUnit) (env : Script.Environment) (debug : Bool) :
    Respects like (compile units env debug) := by
  intro host host' alike
  simp only [compile]
  cases (Compile.compileGroup env debug units ∅).result with
  | error error => exact ⟨_, _, _, rfl, rfl, alike⟩
  | ok done => exact ⟨_, _, _, rfl, rfl, reporting.report alike _ _ _⟩

theorem execute_like (natives : parts.natives.Respect like) (artifacts : ArtifactSet) {host host' : Host σ}
    (alike : like host host') :
    Option.Rel (SameAnswer like) (parts.execute artifacts host) (parts.execute artifacts host') := by
  unfold execute
  cases Machine.Program.load artifacts with
  | error error => exact .some ⟨_, _, _, rfl, rfl, alike⟩
  | ok program =>
    simp only
    have ran : Option.Rel (Machine.Ended.Like like) (Machine.Memory.initial.run program parts.natives parts.steps host)
        (Machine.Memory.initial.run program parts.natives parts.steps host') :=
      Machine.Memory.run_respects natives _ _ alike
    revert ran
    generalize Machine.Memory.initial.run program parts.natives parts.steps host = ran
    generalize Machine.Memory.initial.run program parts.natives parts.steps host' = ran'
    intro ran
    cases ran with
    | none => exact .none
    | @some ended ended' same =>
      obtain ⟨result, memory, after⟩ := ended
      obtain ⟨result', memory', after'⟩ := ended'
      obtain ⟨rfl, rfl, after⟩ := same
      cases result with
      | finished | failed | panicked => exact .some ⟨_, _, _, rfl, rfl, after⟩

/-- The backend of the script language does the same on like hosts if the natives do. -/
theorem backend_respects (reporting : Reporting like) (natives : parts.natives.Respect like) : parts.backend.Respects like where
  newEnvironment _ _ _ alike := ⟨_, _, _, rfl, rfl, alike⟩
  parse request env _ _ alike := parse_like reporting request env alike
  compile := compile_respects reporting
  execute artifacts _ _ alike := execute_like parts natives artifacts alike

/-- A pipeline for the script language. -/
def pipeline (parts : ScriptHost σ) (preprocessor : Preprocessor (Host σ)) (settings : Settings) (loader : String) : Pipeline σ :=
  ⟨parts.backend, preprocessor, settings, loader⟩

/-- A pipeline for the script language does the same on hosts that look the same, if its parts see no more of them. -/
theorem pipeline_respects {ω : Type} {view : σ → ω} {logs : List LogEvent → List LogEvent → Prop} (appending : Appending logs)
    {parts : ScriptHost σ} {preprocessor : Preprocessor (Host σ)} (settings : Settings) (loader : String)
    (natives : parts.natives.See view) (scans : ∀ unit stream, Sees view (preprocessor.scan unit stream)) :
    (parts.pipeline preprocessor settings loader).Respects (Host.Like view logs) where
  reporting := Host.Like.reporting appending
  backend := backend_respects parts (Host.Like.reporting appending) (natives.respect appending)
  scan unit stream := (scans unit stream).respects appending

/-- The environment of a group can always be made. -/
theorem pipeline_newEnvironment (preprocessor : Preprocessor (Host σ)) (settings : Settings) (loader group : String)
    (host : Host σ) :
    (parts.pipeline preprocessor settings loader).backend.newEnvironment group host =
      (.ok (Script.Environment.initial group parts.natives.signatures parts.brackets), host) := rfl

end ScriptHost

end

namespace Pipeline

variable {σ : Type} {like : Host σ → Host σ → Prop} {pipeline : Pipeline σ} {host host' : Host σ}

theorem openUnit_respects {unit : ScriptUnit (Host σ)} (opens : Scriptorium.Respects like unit.openStream) :
    Scriptorium.Respects like (openUnit unit) := by
  intro host host' alike
  obtain ⟨attempt, after, after', opened, opened', alike⟩ := opens host host' alike
  simp only [openUnit, opened, opened']
  exact ⟨_, after, after', rfl, rfl, alike⟩

theorem scanUnit_respects (respects : pipeline.RespectsBuilding like) {unit : ScriptUnit (Host σ)}
    (opens : Scriptorium.Respects like unit.openStream) : Scriptorium.Respects like (pipeline.scanUnit unit) := by
  intro host host' alike
  obtain ⟨opened, after, after', opening, opening', alike⟩ := openUnit_respects opens host host' alike
  unfold scanUnit
  rw [opening, opening']
  cases opened with
  | error error => exact ⟨_, _, _, rfl, rfl, alike⟩
  | ok stream =>
    obtain ⟨attempt, last, last', scanned, scanned', alike⟩ := respects.scan unit.name stream after after' alike
    simp only [scanned, scanned']
    exact ⟨_, _, _, rfl, rfl, alike⟩

private theorem parseUnit_like (respects : pipeline.RespectsBuilding like) {unit : ScriptUnit (Host σ)}
    (opens : Scriptorium.Respects like unit.openStream) (directives : Directives) (env : pipeline.backend.Environment)
    (alike : like host host') :
    ∃ result next after after', pipeline.parseUnit unit directives env host = (result, next, after) ∧
      pipeline.parseUnit unit directives env host' = (result, next, after') ∧ like after after' := by
  obtain ⟨opened, after, after', opening, opening', alike⟩ := openUnit_respects opens host host' alike
  unfold parseUnit
  rw [opening, opening']
  cases opened with
  | error error => exact ⟨_, _, _, _, rfl, rfl, alike⟩
  | ok stream =>
    obtain ⟨attempt, next, last, last', parsed, parsed', alike⟩ := respects.parse
      ⟨stream, unit.name, artifactName unit.name, directives.ignoreBracketErrors || pipeline.settings.suppresses unit.name⟩
      env after after' alike
    simp only [parsed, parsed']
    exact ⟨_, _, _, _, rfl, rfl, alike⟩

theorem processUnit_like (respects : pipeline.RespectsBuilding like) {unit : ScriptUnit (Host σ)}
    (opens : Scriptorium.Respects like unit.openStream) (env : pipeline.backend.Environment) (alike : like host host') :
    ∃ result next after after', pipeline.processUnit unit env host = (result, next, after) ∧
      pipeline.processUnit unit env host' = (result, next, after') ∧ like after after' := by
  obtain ⟨scanned, after, after', scanning, scanning', alike⟩ := scanUnit_respects respects opens host host' alike
  unfold processUnit
  rw [scanning, scanning']
  cases scanned with
  | error error => exact ⟨_, _, _, _, rfl, rfl, alike⟩
  | ok directives =>
    simp only
    cases pipeline.skipReason? directives with
    | some reason => exact ⟨_, _, _, _, rfl, rfl, alike⟩
    | none =>
      obtain ⟨result, next, last, last', parsed, parsed', alike⟩ := parseUnit_like respects opens directives env alike
      simp only [parsed, parsed']
      exact ⟨_, _, _, _, rfl, rfl, alike⟩

variable {reports : Report → Report → Prop}

/-- The same work done on a group, on like hosts and with related reports. -/
structure Progress.Like (reports : Report → Report → Prop) (like : Host σ → Host σ → Prop)
    (progress progress' : Progress pipeline) : Prop where
  parsed : progress.parsed = progress'.parsed
  debug : progress.debug = progress'.debug
  env : progress.env = progress'.env
  report : reports progress.report progress'.report
  host : like progress.host progress'.host

/-- Runs that go on alike, or stop alike. -/
inductive Continuation.Like (reports : Report → Report → Prop) (like : Host σ → Host σ → Prop) :
    Continuation σ → Continuation σ → Prop
  | going {report report' : Report} {host host' : Host σ} (related : reports report report') (alike : like host host') :
      Like reports like (.going report host) (.going report' host')
  | escaped (panic : Panic) {host host' : Host σ} (alike : like host host') :
      Like reports like (.escaped panic host) (.escaped panic host')
  | unfinished : Like reports like .unfinished .unfinished

theorem Continuation.Like.of_going {going : Continuation σ} {report' : Report}
    (alike : going.Like reports like (.going report' host')) :
    ∃ report host, going = .going report host ∧ reports report report' ∧ like host host' := by
  cases alike with
  | going related alike => exact ⟨_, _, rfl, related, alike⟩

theorem Continuation.Like.of_unfinished {going : Continuation σ} (alike : going.Like reports like .unfinished) :
    going = .unfinished := by
  cases alike
  rfl

theorem record_host (failure : Failure) (report : Report) (host : Host σ) :
    (record failure report host).2 = host.reportAll [Report.failureEvent failure] :=
  Host.log_push_eq host _

theorem addUnit_like (respects : pipeline.RespectsBuilding like) (adding : Adding reports) {unit : ScriptUnit (Host σ)}
    (opens : Scriptorium.Respects like unit.openStream) {progress progress' : Progress pipeline}
    (alike : progress.Like reports like progress') :
    (pipeline.addUnit progress unit).Like reports like (pipeline.addUnit progress' unit) := by
  obtain ⟨parsed, debug, env, report, host⟩ := progress
  obtain ⟨parsed', debug', env', report', host'⟩ := progress'
  obtain ⟨rfl, rfl, rfl, related, alike⟩ := alike
  obtain ⟨result, next, after, after', processed, processed', alike⟩ := processUnit_like respects opens env alike
  simp only [addUnit, processed, processed']
  match result with
  | .ok (.parsed unitParsed wanted) =>
    exact ⟨rfl, rfl, rfl, adding.countParsed related, alike⟩
  | .ok (.skipped reason) =>
    exact ⟨rfl, rfl, rfl, adding.countSkipped related, respects.reporting.report alike _ _ _⟩
  | .error error =>
    simp only [record_host]
    exact ⟨rfl, rfl, rfl, adding.record related _, respects.reporting _ _ _ alike⟩

theorem units_like (respects : pipeline.RespectsBuilding like) (adding : Adding reports) {units : List (ScriptUnit (Host σ))}
    (opens : ∀ unit ∈ units, Scriptorium.Respects like unit.openStream) {progress progress' : Progress pipeline}
    (alike : progress.Like reports like progress') :
    (units.foldl (addUnit pipeline) progress).Like reports like (units.foldl (addUnit pipeline) progress') := by
  induction units generalizing progress progress' with
  | nil => exact alike
  | cons unit units ih =>
    obtain ⟨first, rest⟩ := List.forall_mem_cons.mp opens
    exact ih rest (addUnit_like respects adding first alike)

theorem compileAndExecute_like (respects : pipeline.Respects like) (group : String) (execute : Bool)
    {progress progress' : Progress pipeline} (alike : progress.Like reports like progress') :
    Option.Rel (SameAnswer like) (pipeline.compileAndExecute group execute progress)
      (pipeline.compileAndExecute group execute progress') := by
  obtain ⟨parsed, debug, env, report, host⟩ := progress
  obtain ⟨parsed', debug', env', report', host'⟩ := progress'
  obtain ⟨rfl, rfl, rfl, -, alike⟩ := alike
  obtain ⟨attempt, after, after', compiled, compiled', alike⟩ :=
    respects.backend.compile parsed.reverse env debug host host' alike
  simp only [compileAndExecute, compiled, compiled']
  cases forGroup group .compile attempt with
  | error error => exact .some ⟨_, _, _, rfl, rfl, alike⟩
  | ok artifacts =>
    cases execute with
    | false => exact .some ⟨_, _, _, rfl, rfl, alike⟩
    | true =>
      simp only [if_true]
      have executed : Option.Rel (SameAnswer like) (pipeline.backend.execute artifacts after)
          (pipeline.backend.execute artifacts after') := respects.backend.execute artifacts after after' alike
      revert executed
      generalize pipeline.backend.execute artifacts after = executed
      generalize pipeline.backend.execute artifacts after' = executed'
      intro executed
      cases executed with
      | none => exact .none
      | some same =>
        obtain ⟨attempt, last, last', rfl, rfl, alike⟩ := same
        exact .some ⟨_, _, _, rfl, rfl, alike⟩

/-- How a run goes on after the units of a group. -/
def finishGroup (pipeline : Pipeline σ) (group : String) (execute : Bool) (progress : Progress pipeline) : Continuation σ :=
  match pipeline.compileAndExecute group execute progress with
  | none => .unfinished
  | some (.ok (), host) => .going progress.report.countBuilt host
  | some (.error error, host) => .going (progress.report.record (.group error)) (record (.group error) progress.report host).2

theorem buildGroup_eq (pipeline : Pipeline σ) (group : ScriptGroup (Host σ)) (execute : Bool) (report : Report) (host : Host σ) :
    pipeline.buildGroup group execute report host =
      match pipeline.backend.newEnvironment group.name host with
      | (.error panic, host) => .escaped panic host
      | (.ok env, host) =>
        finishGroup pipeline group.name execute
          (group.units.foldl (addUnit pipeline) ⟨[], pipeline.settings.debug, env, report, host⟩) := rfl

theorem finishGroup_like (respects : pipeline.Respects like) (adding : Adding reports) (group : String) (execute : Bool)
    {progress progress' : Progress pipeline} (alike : progress.Like reports like progress') :
    (finishGroup pipeline group execute progress).Like reports like (finishGroup pipeline group execute progress') := by
  have related : reports progress.report progress'.report := alike.report
  have done : Option.Rel (SameAnswer like) (pipeline.compileAndExecute group execute progress)
      (pipeline.compileAndExecute group execute progress') := compileAndExecute_like respects group execute alike
  unfold finishGroup
  revert done
  generalize pipeline.compileAndExecute group execute progress = done
  generalize pipeline.compileAndExecute group execute progress' = done'
  intro done
  cases done with
  | none => exact .unfinished
  | some same =>
    obtain ⟨result, after, after', rfl, rfl, alike⟩ := same
    cases result with
    | ok built => exact .going (adding.countBuilt related) alike
    | error error =>
      simp only [record_host]
      exact .going (adding.record related _) (respects.reporting _ _ _ alike)

/-- A group is built alike on like hosts. -/
theorem buildGroup_like (respects : pipeline.Respects like) (adding : Adding reports) {group : ScriptGroup (Host σ)}
    (opens : ∀ unit ∈ group.units, Scriptorium.Respects like unit.openStream) (execute : Bool) {report report' : Report}
    (related : reports report report') (alike : like host host') :
    (pipeline.buildGroup group execute report host).Like reports like (pipeline.buildGroup group execute report' host') := by
  obtain ⟨made, after, after', making, making', alike⟩ := respects.backend.newEnvironment group.name host host' alike
  rw [buildGroup_eq, buildGroup_eq, making, making']
  cases made with
  | error panic => exact .escaped panic alike
  | ok env => exact finishGroup_like respects adding _ _ (units_like respects.building adding opens ⟨rfl, rfl, rfl, related, alike⟩)

section
variable {execute : Bool} {seen : List String} {group : ScriptGroup (Host σ)}

theorem buildGroups_cons_seen (before : group.name ∈ seen) (report : Report) (host : Host σ)
    (groups : List (ScriptGroup (Host σ))) :
    pipeline.buildGroups execute seen report host (group :: groups) =
      pipeline.buildGroups execute seen report.countDuplicate
        (host.report .debug .pipeline s!"Skipping duplicate group {group.name}") groups := by
  rw [buildGroups, if_pos before]

theorem buildGroups_cons_fresh (fresh : group.name ∉ seen) (report : Report) (host : Host σ)
    (groups : List (ScriptGroup (Host σ))) :
    pipeline.buildGroups execute seen report host (group :: groups) =
      match pipeline.buildGroup group execute report (host.report .info .pipeline (loadingMessage group.name)) with
      | .going report host => pipeline.buildGroups execute (group.name :: seen) report host groups
      | stopped => stopped := by
  rw [buildGroups]
  exact if_neg fresh

end

/-- Groups are built alike, one after the other, on like hosts. -/
theorem buildGroups_like (respects : pipeline.Respects like) (adding : Adding reports) {groups : List (ScriptGroup (Host σ))}
    (opens : ∀ group ∈ groups, ∀ unit ∈ group.units, Scriptorium.Respects like unit.openStream) (execute : Bool)
    (seen : List String) {report report' : Report} (related : reports report report') (alike : like host host') :
    (pipeline.buildGroups execute seen report host groups).Like reports like
      (pipeline.buildGroups execute seen report' host' groups) := by
  induction groups generalizing seen report report' host host' with
  | nil => exact .going related alike
  | cons group groups ih =>
    obtain ⟨first, rest⟩ := List.forall_mem_cons.mp opens
    by_cases before : group.name ∈ seen
    · rw [buildGroups_cons_seen before, buildGroups_cons_seen before]
      exact ih rest seen (adding.countDuplicate related) (respects.reporting.report alike _ _ _)
    · rw [buildGroups_cons_fresh before, buildGroups_cons_fresh before]
      have built := buildGroup_like respects adding first execute related
        (respects.reporting.report alike .info .pipeline (loadingMessage group.name))
      revert built
      generalize pipeline.buildGroup group execute report _ = built
      generalize pipeline.buildGroup group execute report' _ = built'
      intro built
      cases built with
      | going related alike => exact ih rest _ related alike
      | escaped panic alike => exact .escaped panic alike
      | unfinished => exact .unfinished

end Pipeline

end Scriptorium.Build
