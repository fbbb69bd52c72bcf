import Scriptorium.Proofs.Suppression

/-!
# Runs that do not execute

A run that does not execute is compared with one that does. Both take their groups side by side: natives leave as it is what is
seen of the host, so that units are opened and scanned in the same way whatever the groups before have done when they ran. A group
comes to the same end in both runs, unless it is executing that it fails at (`Untried`); so the reports differ in the failures of
executing only (`Report.Unexecuted`).

A run that does not execute does the same whatever its backend does when it executes (`run_executing`). It calls no native and
changes nothing that opening units and scanning them do not change.
-/
namespace Scriptorium.Build

/-- Whether a failure is one of executing. -/
def Failure.ofExecuting : Failure → Bool
  | unit _ => false
  | group error => error.stage == .execute

/-- The report of a run that does not execute, by that of one that does. -/
structure Report.Unexecuted (report executed : Report) : Prop where
  failures : report.failures = executed.failures.filter (!·.ofExecuting)
  groupsBuilt : report.groupsBuilt = executed.groupsBuilt + executed.failures.countP Failure.ofExecuting
  groupsSkipped : report.groupsSkipped = executed.groupsSkipped
  unitsParsed : report.unitsParsed = executed.unitsParsed
  unitsSkipped : report.unitsSkipped = executed.unitsSkipped

namespace Report.Unexecuted

variable {report executed gain gain' : Report}

theorem empty : Report.empty.Unexecuted .empty := ⟨rfl, rfl, rfl, rfl, rfl⟩

theorem add (unexecuted : report.Unexecuted executed) (gained : gain.Unexecuted gain') :
    (report.add gain).Unexecuted (executed.add gain') where
  failures := by rw [Report.add, Report.add, List.filter_append, unexecuted.failures, gained.failures]
  groupsBuilt := by
    simp only [Report.add, List.countP_append, unexecuted.groupsBuilt, gained.groupsBuilt]
    omega
  groupsSkipped := congrArg₂ (· + ·) unexecuted.groupsSkipped gained.groupsSkipped
  unitsParsed := congrArg₂ (· + ·) unexecuted.unitsParsed gained.unitsParsed
  unitsSkipped := congrArg₂ (· + ·) unexecuted.unitsSkipped gained.unitsSkipped

/-- Units do not fail at executing. -/
theorem ofUnits (ends : List UnitEnd) : (Report.ofUnits ends).Unexecuted (.ofUnits ends) := by
  have parsing : ∀ failure ∈ (Report.ofUnits ends).failures, failure.ofExecuting = false := by
    intro failure inside
    obtain ⟨error, -, rfl⟩ := List.mem_map.mp inside
    rfl
  have none : (Report.ofUnits ends).failures.countP Failure.ofExecuting = 0 :=
    List.countP_eq_zero.mpr fun failure inside => Bool.eq_false_iff.mp (parsing failure inside)
  refine ⟨(List.filter_eq_self.mpr fun failure inside => ?_).symm, by rw [none, Nat.add_zero], rfl, rfl, rfl⟩
  rw [parsing failure inside]
  rfl

theorem countBuilt (unexecuted : report.Unexecuted executed) : report.countBuilt.Unexecuted executed.countBuilt :=
  { unexecuted with groupsBuilt := by simp only [Report.countBuilt, unexecuted.groupsBuilt, Nat.add_right_comm] }

/-- A group that does not compile fails in both runs. -/
theorem notCompiled (unexecuted : report.Unexecuted executed) {error : GroupError} (stage : error.stage = .compile) :
    (report.record (.group error)).Unexecuted (executed.record (.group error)) :=
  { unexecuted with
    failures := by simp [Report.record, Failure.ofExecuting, unexecuted.failures, stage]
    groupsBuilt := by simp [Report.record, Failure.ofExecuting, unexecuted.groupsBuilt, stage] }

/-- A group that fails at executing is built where it is not executed. -/
theorem notExecuted (unexecuted : report.Unexecuted executed) {error : GroupError} (stage : error.stage = .execute) :
    report.countBuilt.Unexecuted (executed.record (.group error)) :=
  { unexecuted with
    failures := by simp [Report.record, Report.countBuilt, Failure.ofExecuting, unexecuted.failures, stage]
    groupsBuilt := by
      simp [Report.record, Report.countBuilt, Failure.ofExecuting, unexecuted.groupsBuilt, stage]
      omega }

theorem countDuplicate (unexecuted : report.Unexecuted executed) : report.countDuplicate.Unexecuted executed.countDuplicate :=
  { unexecuted with groupsSkipped := congrArg Nat.succ unexecuted.groupsSkipped }

end Report.Unexecuted

/-- What a group comes to when it is not executed, and when it is. -/
inductive Untried : Except GroupError Unit → Except GroupError Unit → Prop
  | notCompiled {error : GroupError} (stage : error.stage = .compile) : Untried (.error error) (.error error)
  | executed : Untried (.ok ()) (.ok ())
  | notExecuted {error : GroupError} (stage : error.stage = .execute) : Untried (.ok ()) (.error error)

namespace Pipeline

variable {σ ω : Type} {view : σ → ω} {pipeline : Pipeline σ}

section
variable {report report' next' : Report} {host host' after' : Host σ}

private theorem forGroup_stage {α : Type} {group : String} {stage : Stage} {attempt : Attempt String α} {error : GroupError}
    (failed : forGroup group stage attempt = .error error) : error.stage = stage := by
  cases attempt with
  | returned value => cases failed
  | refused reason | panicked panic =>
    cases failed
    rfl

/-- Without executing it a group that has been parsed comes to the same, unless executing it fails. -/
theorem compileAndExecute_untried (respects : pipeline.RespectsBuilding (SameView view)) (discreet : pipeline.backend.Discreet view)
    {reports : Report → Report → Prop} {progress progress' : Progress pipeline}
    (alike : progress.Like reports (SameView view) progress') {group : String} {result' : Except GroupError Unit}
    (finished : pipeline.compileAndExecute group true progress' = some (result', after')) :
    ∃ result after, pipeline.compileAndExecute group false progress = some (result, after) ∧ Untried result result' ∧
      SameView view after after' := by
  obtain ⟨parsed, debug, env, report, host⟩ := progress
  obtain ⟨parsed', debug', env', report', host'⟩ := progress'
  obtain ⟨rfl, rfl, rfl, -, alike⟩ := alike
  obtain ⟨attempt, between, between', compiled, compiled', alike⟩ := respects.compile parsed.reverse env debug host host' alike
  simp only [compileAndExecute, compiled, compiled'] at finished ⊢
  cases settled : forGroup group .compile attempt with
  | error error =>
    rw [settled] at finished
    cases finished
    exact ⟨_, _, rfl, .notCompiled (forGroup_stage settled), alike⟩
  | ok artifacts =>
    rw [settled] at finished
    obtain ⟨⟨attempt, last⟩, executed, same⟩ := Option.map_eq_some_iff.mp finished
    cases same
    refine ⟨_, _, rfl, ?_, alike.trans (discreet.execute _ _ _ _ executed)⟩
    cases settled : forGroup group .execute attempt with
    | ok done => exact .executed
    | error error => exact .notExecuted (forGroup_stage settled)

/-- A group that is built and executed is built without executing it. -/
theorem buildGroup_unexecuted (respects : pipeline.RespectsBuilding (SameView view)) (discreet : pipeline.backend.Discreet view)
    {group : ScriptGroup (Host σ)} (opens : ∀ unit ∈ group.units, Scriptorium.Respects (SameView view) unit.openStream)
    (unexecuted : report.Unexecuted report') (alike : SameView view host host')
    (built : pipeline.buildGroup group true report' host' = .going next' after') :
    ∃ next after, pipeline.buildGroup group false report host = .going next after ∧ next.Unexecuted next' ∧
      SameView view after after' := by
  obtain ⟨made, between, between', making, making', alike⟩ := respects.newEnvironment group.name host host' alike
  rw [buildGroup_eq, making'] at built
  rw [buildGroup_eq, making]
  cases made with
  | error panic => cases built
  | ok env =>
    let start : Progress pipeline := ⟨[], pipeline.settings.debug, env, report, between⟩
    let start' : Progress pipeline := ⟨[], pipeline.settings.debug, env, report', between'⟩
    have begun : start.Like (fun _ _ => True) (SameView view) start' := ⟨rfl, rfl, rfl, trivial, alike⟩
    have adding : Adding fun _ _ => True := fun _ _ _ _ => trivial
    have units := units_like respects adding opens begun
    have reports : (group.units.foldl pipeline.addUnit start).report.Unexecuted
        (group.units.foldl pipeline.addUnit start').report := by
      rw [units_report, units_report, unitEnds_like respects adding opens begun]
      exact unexecuted.add (.ofUnits _)
    simp only [finishGroup] at built ⊢
    split at built
    next => cases built
    next between' finished =>
      obtain ⟨result, after, alone, untried, alike⟩ := compileAndExecute_untried respects discreet units finished
      rw [alone]
      cases built
      cases untried
      exact ⟨_, _, rfl, reports.countBuilt, alike⟩
    next error between' finished =>
      obtain ⟨result, after, alone, untried, alike⟩ := compileAndExecute_untried respects discreet units finished
      rw [alone]
      cases built
      cases untried with
      | notCompiled stage => exact ⟨_, _, rfl, reports.notCompiled stage, alike⟩
      | notExecuted stage => exact ⟨_, _, rfl, reports.notExecuted stage, alike⟩

/-- Groups that are built and executed are built without executing them. -/
theorem buildGroups_unexecuted (respects : pipeline.RespectsBuilding (SameView view)) (discreet : pipeline.backend.Discreet view)
    {groups : List (ScriptGroup (Host σ))}
    (opens : ∀ group ∈ groups, ∀ unit ∈ group.units, Scriptorium.Respects (SameView view) unit.openStream) {seen : List String}
    (unexecuted : report.Unexecuted report') (alike : SameView view host host')
    (built : pipeline.buildGroups true seen report' host' groups = .going next' after') :
    ∃ next after, pipeline.buildGroups false seen report host groups = .going next after ∧ next.Unexecuted next' := by
  induction groups generalizing seen report report' host host' with
  | nil =>
    cases built
    exact ⟨report, host, rfl, unexecuted⟩
  | cons group groups ih =>
    obtain ⟨here, rest⟩ := List.forall_mem_cons.mp opens
    by_cases before : group.name ∈ seen
    · rw [buildGroups_cons_seen before] at built ⊢
      have reported : SameView view (host.report .debug .pipeline s!"Skipping duplicate group {group.name}")
        (host'.report .debug .pipeline s!"Skipping duplicate group {group.name}") := alike
      exact ih rest unexecuted.countDuplicate reported built
    · rw [buildGroups_cons_fresh before] at built ⊢
      split at built
      next report₁ host₁ first =>
        have begun : SameView view (host.report .info .pipeline (loadingMessage group.name))
          (host'.report .info .pipeline (loadingMessage group.name)) := alike
        obtain ⟨next, between, alone, unexecuted, alike⟩ := buildGroup_unexecuted respects discreet here unexecuted begun first
        rw [alone]
        exact ih rest unexecuted alike built
      next stopped => exact absurd built (stopped _ _)

end

/-- The pipeline with a backend that executes in another way. -/
def executing (pipeline : Pipeline σ) (execute : ArtifactSet → Host σ → Option (Attempt String Unit × Host σ)) : Pipeline σ :=
  { pipeline with backend := { pipeline.backend with execute } }

section
variable {execute : ArtifactSet → Host σ → Option (Attempt String Unit × Host σ)}

/-- The same work on a group, done with the other backend. -/
def Progress.executing (execute : ArtifactSet → Host σ → Option (Attempt String Unit × Host σ)) (progress : Progress pipeline) :
    Progress (pipeline.executing execute) :=
  ⟨progress.parsed, progress.debug, progress.env, progress.report, progress.host⟩

private theorem addUnit_executing (progress : Progress pipeline) (unit : ScriptUnit (Host σ)) :
    (pipeline.executing execute).addUnit (progress.executing execute) unit = (pipeline.addUnit progress unit).executing execute := by
  have same : (pipeline.executing execute).processUnit unit (progress.executing execute).env (progress.executing execute).host =
      pipeline.processUnit unit progress.env progress.host := rfl
  unfold addUnit
  rw [same]
  obtain ⟨result, env, host⟩ := pipeline.processUnit unit progress.env progress.host
  rcases result with error | (⟨parsed, debug⟩ | reason) <;> rfl

private theorem finishGroup_executing (group : String) (progress : Progress pipeline) :
    finishGroup (pipeline.executing execute) group false (progress.executing execute) = finishGroup pipeline group false progress :=
  rfl

private theorem buildGroup_executing (group : ScriptGroup (Host σ)) (report : Report) (host : Host σ) :
    (pipeline.executing execute).buildGroup group false report host = pipeline.buildGroup group false report host := by
  have units (progress : Progress pipeline) : group.units.foldl (pipeline.executing execute).addUnit (progress.executing execute) =
      (group.units.foldl pipeline.addUnit progress).executing execute := List.foldl_hom _ addUnit_executing
  have made : (pipeline.executing execute).backend.newEnvironment group.name host = pipeline.backend.newEnvironment group.name host :=
    rfl
  rw [buildGroup_eq, buildGroup_eq, made]
  obtain ⟨attempt, after⟩ := pipeline.backend.newEnvironment group.name host
  cases attempt with
  | error panic => rfl
  | ok env =>
    have begun := units ⟨[], pipeline.settings.debug, env, report, after⟩
    exact (congrArg (finishGroup _ group.name false) begun).trans (finishGroup_executing _ _)

private theorem buildGroups_executing (groups : List (ScriptGroup (Host σ))) (seen : List String) (report : Report) (host : Host σ) :
    (pipeline.executing execute).buildGroups false seen report host groups = pipeline.buildGroups false seen report host groups := by
  induction groups generalizing seen report host with
  | nil => rfl
  | cons group groups ih =>
    by_cases before : group.name ∈ seen
    · rw [buildGroups_cons_seen before, buildGroups_cons_seen before, ih]
    · rw [buildGroups_cons_fresh before, buildGroups_cons_fresh before, buildGroup_executing]
      split
      · exact ih _ _ _
      · rfl

/-- A run that does not execute does the same whatever its backend does when it executes. -/
theorem run_executing (source : Source (Host σ)) (host : Host σ) :
    (pipeline.executing execute).run source false host = pipeline.run source false host := by
  unfold run
  simp only [buildGroups_executing]

end

theorem RespectsBuilding.executing {like : Host σ → Host σ → Prop} (respects : pipeline.RespectsBuilding like) :
    (pipeline.executing fun _ host => some (.returned (), host)).Respects like where
  reporting := respects.reporting
  backend := ⟨respects.newEnvironment, respects.parse, respects.compile, fun _ _ _ alike => .some ⟨_, _, _, rfl, rfl, alike⟩⟩
  scan := respects.scan

end Pipeline

/-- How a run that does not execute ends, by how one that does ends: it reports the same but for the failures of executing, and the
groups that fail so are built. It comes to its end even where the other one does not. -/
def Pipeline.RunOutcome.Unexecuted {σ : Type} : RunOutcome σ → RunOutcome σ → Prop
  | .reported report _, .reported executed _ => report.Unexecuted executed
  | .reported _ _, .unfinished => True
  | .sourceFailed message _, .sourceFailed message' _ => message = message'
  | _, _ => False

namespace ScriptHost

variable {σ ω : Type} {view : σ → ω} {parts : ScriptHost σ} {preprocessor : Preprocessor (Host σ)}

/-- The same parts with other natives of the same names and arities. -/
theorem pipeline_withNatives (parts : ScriptHost σ) (preprocessor : Preprocessor (Host σ)) (settings : Settings) (loader : String)
    {natives : Natives (Host σ)} (same : natives.signatures = parts.natives.signatures) :
    { parts with natives }.pipeline preprocessor settings loader =
      (parts.pipeline preprocessor settings loader).executing { parts with natives }.execute := by
  simp only [pipeline, Pipeline.executing, backend, same]

private theorem pipeline_respectsBuilding {like : Host σ → Host σ → Prop} (reporting : Reporting like)
    (scans : ∀ unit stream, Respects like (preprocessor.scan unit stream)) (settings : Settings) (loader : String) :
    (parts.pipeline preprocessor settings loader).RespectsBuilding like where
  reporting := reporting
  newEnvironment _ _ _ alike := ⟨_, _, _, rfl, rfl, alike⟩
  scan := scans
  parse request env _ _ alike := parse_like reporting request env alike
  compile := compile_respects reporting

end ScriptHost

section
variable {σ ω κ : Type} {view : σ → ω} {part : σ → κ} {parts : ScriptHost σ} {preprocessor : Preprocessor (Host σ)}
  {settings : Settings} {loader : String} {source : Source (Host σ)} {host : Host σ}

/-- A run that does not execute leaves as it is what opening units and scanning them does. -/
theorem run_unseen (opens : source.EachUnit fun unit => ∀ host, Unseen part host (unit.openStream host).2)
    (scans : ∀ unit stream host, Unseen part host (preprocessor.scan unit stream host).2) {after : Host σ}
    (left : ((parts.pipeline preprocessor settings loader).run source false host).host? = some after) : Unseen part host after := by
  have holding {α : Type} {work : Host σ → α × Host σ} (unseen : ∀ host, Unseen part host (work host).2) :
      Respects (Holding (Unseen part host)) work := .holding fun between before => before.trans (unseen between)
  have reporting : Reporting (Holding (Unseen part host)) := by
    rintro between _ events ⟨rfl, before⟩
    exact ⟨rfl, before.trans (.reportAll between events)⟩
  -- executing is left out, so that the pipeline may be one that does nothing then
  let quiet := (parts.pipeline preprocessor settings loader).executing fun _ host => some (.returned (), host)
  have respects : quiet.Respects (Holding (Unseen part host)) :=
    (ScriptHost.pipeline_respectsBuilding reporting (fun unit stream => holding (scans unit stream)) settings loader).executing
  rw [← show quiet.run source false host = _ from Pipeline.run_executing source host] at left
  exact Pipeline.run_holding respects
    (fun groups listed group inside unit here => holding (opens groups listed group inside unit here)) (.refl host) left

/-- A run that does not execute calls no native, and changes nothing but what opening units and scanning them changes. It reports
what a run that executes does, without the failures of executing; the groups that fail so are built instead. Natives may fail,
panic and change the host as they like, apart from what units and the preprocessor see of it. -/
theorem run_unexecuted (natives : parts.natives.Keep view)
    (scans : ∀ unit stream, Respects (SameView view) (preprocessor.scan unit stream))
    (opens : source.EachUnit fun unit => Respects (SameView view) unit.openStream) (settings : Settings) (loader : String)
    (host : Host σ) :
    let alone := (parts.pipeline preprocessor settings loader).run source false host
    alone.Unexecuted ((parts.pipeline preprocessor settings loader).run source true host) ∧
      (∀ natives : Natives (Host σ), natives.signatures = parts.natives.signatures →
        ({ parts with natives }.pipeline preprocessor settings loader).run source false host = alone) ∧
      ∀ (κ : Type) (part : σ → κ), (source.EachUnit fun unit => ∀ host, Unseen part host (unit.openStream host).2) →
        (∀ unit stream host, Unseen part host (preprocessor.scan unit stream host).2) →
        ∀ after, alone.host? = some after → Unseen part host after := by
  refine ⟨?_, ?_, fun _ _ opens scans _ => run_unseen opens scans⟩
  · let pipeline := parts.pipeline preprocessor settings loader
    obtain ⟨⟨result, events⟩⟩ := source
    cases result with
    | error message => exact rfl
    | ok groups =>
      have respects : pipeline.RespectsBuilding (SameView view) :=
        ScriptHost.pipeline_respectsBuilding SameView.reporting scans settings loader
      rw [Pipeline.run_listed, Pipeline.run_listed]
      cases executed : pipeline.buildGroups true [] .empty (host.reportAll events) groups with
      | escaped panic after => exact absurd executed (buildGroups_ne_escaped _ _ _ _ _ _ _ _ _)
      | going next after =>
        obtain ⟨report, last, built, unexecuted⟩ := Pipeline.buildGroups_unexecuted respects
          (ScriptHost.backend_discreet natives) (opens groups rfl) .empty rfl executed
        rw [built]
        exact unexecuted
      | unfinished =>
        cases built : pipeline.buildGroups false [] .empty (host.reportAll events) groups with
        | escaped panic after => exact absurd built (buildGroups_ne_escaped _ _ _ _ _ _ _ _ _)
        | going next after => trivial
        | unfinished => exact absurd (Pipeline.buildGroups_unfinished _ built).1 Bool.false_ne_true
  · intro natives same
    rw [ScriptHost.pipeline_withNatives parts preprocessor settings loader same, Pipeline.run_executing]

end

theorem contentScripts_run_unexecuted :
    let alone := (contentParts.pipeline .directives .initial "tweaker").run (.ofGroups (groupsOf contentScripts)) false (.initial ∅)
    alone.Unexecuted
        ((contentParts.pipeline .directives .initial "tweaker").run (.ofGroups (groupsOf contentScripts)) true (.initial ∅)) ∧
      (∀ natives : Natives (Host ContentStore), natives.signatures = contentParts.natives.signatures →
        ({ contentParts with natives }.pipeline .directives .initial "tweaker").run (.ofGroups (groupsOf contentScripts)) false
          (.initial ∅) = alone) ∧
      ∀ after, alone.host? = some after → Unseen (id : ContentStore → ContentStore) (.initial ∅) after := by
  have stored : ∀ group ∈ groupsOf contentScripts, ∀ unit ∈ group.units, ∃ name content, unit = .ofBytes name content := by
    intro group inside unit here
    obtain ⟨script, -, rfl⟩ := List.mem_map.mp inside
    exact ⟨_, _, List.mem_singleton.mp here⟩
  -- nothing of the content matters to units that are stored elsewhere
  have opens : (Source.ofGroups (groupsOf contentScripts)).EachUnit fun unit => Respects (SameView fun _ => ()) unit.openStream := by
    rintro _ ⟨⟩ group inside unit here
    obtain ⟨name, content, rfl⟩ := stored group inside unit here
    exact fun _ _ alike => ⟨_, _, _, rfl, rfl, alike⟩
  have natives : contentParts.natives.Keep fun _ => () := fun _ _ _ _ _ => rfl
  obtain ⟨compared, uncalled, unseen⟩ :=
    run_unexecuted natives Preprocessor.directives_respects opens .initial "tweaker" (.initial ∅)
  refine ⟨compared, uncalled, unseen ContentStore id ?_ Preprocessor.directives_unseen⟩
  rintro _ ⟨⟩ group inside unit here host
  obtain ⟨name, content, rfl⟩ := stored group inside unit here
  exact .refl host

end Scriptorium.Build
