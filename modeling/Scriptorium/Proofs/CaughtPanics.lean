import Scriptorium.Proofs.Accounts

/-!
# Panics of collaborators

`Pipeline.calls` says which calls a run makes into its collaborators for each group and unit, and how they end. The failures of
the report are those of the calls, one for each call that refuses or panics, in the order of the calls (`calls_account`). What
follows on a call that panics is as it is where a call refuses, so that later units and groups are taken all the same.

Making the environment of a group is the one call that is not guarded. A panic in it stops the run: there is no report of what
failed before, and the groups after it are not taken (`buildGroups_escaped`). So a run ends with a report unless such a panic escapes
from it, and no other panic does (`run_catches`).
-/
namespace Scriptorium.Build

open Files (ReadError)

/-- A call that the work on a unit makes, and how it ends. -/
inductive UnitCall (α : Type)
  | opening (attempt : Attempt ReadError Stream)
  | scanning (attempt : Attempt ScanError Directives)
  | parsing (attempt : Attempt FrontError α)

/-- The error of a unit that a call comes to: whatever panics is unclassified. -/
def UnitCall.error? {α : Type} (unit : String) : UnitCall α → Option UnitError
  | opening (.returned _) | scanning (.returned _) | parsing (.returned _) => none
  | opening (.refused error) => some (.sourceIo unit error)
  | scanning (.refused error) => some (.unclassified unit error.message)
  | parsing (.refused error) => some (error.toUnitError unit)
  | opening (.panicked panic) | scanning (.panicked panic) | parsing (.panicked panic) =>
    some (.unclassified unit (panicMessage panic))

/-- The error of a result. -/
def error? {ε α : Type} : Except ε α → Option ε
  | .ok _ => none
  | .error error => some error

/-- The error of a group that a call at some stage comes to. -/
def groupError? {α : Type} (group : String) (stage : Stage) : Attempt String α → Option GroupError
  | .returned _ => none
  | .refused reason => some ⟨group, stage, reason⟩
  | .panicked panic => some ⟨group, stage, panicMessage panic⟩

/-- The calls for a unit, in their order. -/
structure UnitCalls (σ α : Type) where
  unit : ScriptUnit (Host σ)
  made : List (UnitCall α)

/-- The errors of a unit. -/
def UnitCalls.errors {σ α : Type} (calls : UnitCalls σ α) : List UnitError :=
  calls.made.filterMap (UnitCall.error? calls.unit.name)

/-- The calls that building a group makes after its environment has been made, and how they end: those for each unit, and then
those for the group as a whole. -/
structure GroupCalls (σ α : Type) where
  group : ScriptGroup (Host σ)
  units : List (UnitCalls σ α)
  compiling : Attempt String ArtifactSet
  executing : Option (Attempt String Unit)

namespace GroupCalls

variable {σ α : Type} (calls : GroupCalls σ α)

/-- The errors of the units. -/
def unitErrors : List UnitError := calls.units.flatMap UnitCalls.errors

/-- The errors of the group as a whole. -/
def groupErrors : List GroupError :=
  (groupError? calls.group.name .compile calls.compiling).toList ++
    (calls.executing.bind (groupError? calls.group.name .execute)).toList

/-- The failures, in the order of the calls. -/
def failures : List Failure := calls.unitErrors.map .unit ++ calls.groupErrors.map .group

end GroupCalls

namespace Pipeline

variable {σ : Type} (pipeline : Pipeline σ)

/-- The calls for finding the directives of a unit: it is opened, and scanned if it can be. -/
def scanCalls (unit : ScriptUnit (Host σ)) (host : Host σ) : List (UnitCall pipeline.backend.Parsed) :=
  match unit.openStream host with
  | (.returned stream, host) =>
    [.opening (.returned stream), .scanning (pipeline.preprocessor.scan unit.name stream host).1]
  | (attempt, _) => [.opening attempt]

/-- The calls for parsing a unit: it is opened, and parsed if it can be. -/
def parseCalls (unit : ScriptUnit (Host σ)) (directives : Directives) (env : pipeline.backend.Environment) (host : Host σ) :
    List (UnitCall pipeline.backend.Parsed) :=
  match unit.openStream host with
  | (.returned stream, host) =>
    let tolerant := directives.ignoreBracketErrors || pipeline.settings.suppresses unit.name
    [.opening (.returned stream),
      .parsing (pipeline.backend.parse ⟨stream, unit.name, artifactName unit.name, tolerant⟩ env host).1]
  | (attempt, _) => [.opening attempt]

/-- The calls for a unit: for its directives, and for parsing it unless they leave it out. -/
def unitCalls (unit : ScriptUnit (Host σ)) (env : pipeline.backend.Environment) (host : Host σ) :
    List (UnitCall pipeline.backend.Parsed) :=
  pipeline.scanCalls unit host ++
    match pipeline.scanUnit unit host with
    | (.error _, _) => []
    | (.ok directives, host) =>
      match pipeline.skipReason? directives with
      | some _ => []
      | none => pipeline.parseCalls unit directives env host

/-- The calls for units that are taken one after the other. -/
def unitsCalls (progress : Progress pipeline) : List (ScriptUnit (Host σ)) → List (UnitCalls σ pipeline.backend.Parsed)
  | [] => []
  | unit :: units =>
    ⟨unit, pipeline.unitCalls unit progress.env progress.host⟩ :: unitsCalls (pipeline.addUnit progress unit) units

/-- The calls for a group as a whole: its units are compiled and, where this is wanted and they can be, executed; unless that takes
too long. -/
def stageCalls? (execute : Bool) (progress : Progress pipeline) :
    Option (Attempt String ArtifactSet × Option (Attempt String Unit)) :=
  match execute, pipeline.backend.compile progress.parsed.reverse progress.env progress.debug progress.host with
  | true, (.returned artifacts, host) =>
    (pipeline.backend.execute artifacts host).map fun (executing, _) => (.returned artifacts, some executing)
  | _, (compiling, _) => some (compiling, none)

/-- The calls for a group, unless its environment cannot be made or executing it takes too long. -/
def groupCalls? (group : ScriptGroup (Host σ)) (execute : Bool) (report : Report) (host : Host σ) :
    Option (GroupCalls σ pipeline.backend.Parsed) :=
  match pipeline.backend.newEnvironment group.name host with
  | (.error _, _) => none
  | (.ok env, host) =>
    let start : Progress pipeline := ⟨[], pipeline.settings.debug, env, report, host⟩
    (pipeline.stageCalls? execute (group.units.foldl (addUnit pipeline) start)).map fun (compiling, executing) =>
      ⟨group, pipeline.unitsCalls start group.units, compiling, executing⟩

/-- The calls for the groups that a run builds; `seen` holds the names of those before. -/
def calls (execute : Bool) (seen : List String) (report : Report) (host : Host σ) :
    List (ScriptGroup (Host σ)) → List (GroupCalls σ pipeline.backend.Parsed)
  | [] => []
  | group :: groups =>
    if group.name ∈ seen then
      calls execute seen report.countDuplicate (host.report .debug .pipeline s!"Skipping duplicate group {group.name}") groups
    else
      let host := host.report .info .pipeline (loadingMessage group.name)
      match pipeline.groupCalls? group execute report host, pipeline.buildGroup group execute report host with
      | some made, .going report host => made :: calls execute (group.name :: seen) report host groups
      | _, _ => []

private theorem scanCalls_errors (unit : ScriptUnit (Host σ)) (host : Host σ) :
    (pipeline.scanCalls unit host).filterMap (UnitCall.error? unit.name) = (error? (pipeline.scanUnit unit host).1).toList := by
  unfold scanCalls scanUnit openUnit
  obtain ⟨opened, after⟩ := unit.openStream host
  cases opened with
  | refused | panicked => rfl
  | returned stream =>
    simp only [forUnit]
    cases (pipeline.preprocessor.scan unit.name stream after).1 <;> rfl

private theorem parseCalls_errors (unit : ScriptUnit (Host σ)) (directives : Directives) (env : pipeline.backend.Environment)
    (host : Host σ) :
    (pipeline.parseCalls unit directives env host).filterMap (UnitCall.error? unit.name) =
      (error? (pipeline.parseUnit unit directives env host).1).toList := by
  unfold parseCalls parseUnit openUnit
  obtain ⟨opened, after⟩ := unit.openStream host
  cases opened with
  | refused | panicked => rfl
  | returned stream =>
    simp only [forUnit]
    cases (pipeline.backend.parse ⟨stream, unit.name, artifactName unit.name,
      directives.ignoreBracketErrors || pipeline.settings.suppresses unit.name⟩ env after).1 <;> rfl

/-- A unit fails with the error of the call that does not return, if there is one. -/
theorem unitCalls_errors (unit : ScriptUnit (Host σ)) (env : pipeline.backend.Environment) (host : Host σ) :
    (pipeline.unitCalls unit env host).filterMap (UnitCall.error? unit.name) =
      (UnitEnd.of (pipeline.processUnit unit env host).1).error?.toList := by
  rw [unitCalls, List.filterMap_append, scanCalls_errors]
  unfold processUnit
  obtain ⟨scanned, after⟩ := pipeline.scanUnit unit host
  cases scanned with
  | error error => rfl
  | ok directives =>
    simp only
    cases pipeline.skipReason? directives with
    | some reason => rfl
    | none =>
      simp only [parseCalls_errors]
      cases (pipeline.parseUnit unit directives env after).1 <;> rfl

private theorem unitsCalls_errors (units : List (ScriptUnit (Host σ))) (progress : Progress pipeline) :
    (pipeline.unitsCalls progress units).flatMap UnitCalls.errors =
      (pipeline.unitEnds progress units).filterMap UnitEnd.error? := by
  induction units generalizing progress with
  | nil => rfl
  | cons unit units ih =>
    rw [unitsCalls, unitEnds, List.flatMap_cons, ih, UnitCalls.errors, unitCalls_errors, List.filterMap_cons]
    cases (UnitEnd.of (pipeline.processUnit unit progress.env progress.host).1).error? <;> rfl

private theorem unitsCalls_units (units : List (ScriptUnit (Host σ))) (progress : Progress pipeline) :
    (pipeline.unitsCalls progress units).map UnitCalls.unit = units := by
  induction units generalizing progress with
  | nil => rfl
  | cons unit units ih => rw [unitsCalls, List.map_cons, ih]

/-- Every unit is opened. -/
theorem unitsCalls_opening (units : List (ScriptUnit (Host σ))) (progress : Progress pipeline) :
    ∀ calls ∈ pipeline.unitsCalls progress units, ∃ attempt rest, calls.made = .opening attempt :: rest := by
  induction units generalizing progress with
  | nil => exact fun _ inside => absurd inside List.not_mem_nil
  | cons unit units ih =>
    refine List.forall_mem_cons.mpr ⟨?_, ih _⟩
    unfold unitCalls scanCalls
    split <;> exact ⟨_, _, rfl⟩

/-- A group fails with the error of the call that does not return, if there is one. -/
theorem stageCalls?_errors {group : String} {execute : Bool} {progress : Progress pipeline} {result : Except GroupError Unit}
    {last : Host σ} (finished : pipeline.compileAndExecute group execute progress = some (result, last)) :
    ∃ compiling executing, pipeline.stageCalls? execute progress = some (compiling, executing) ∧
      (groupError? group .compile compiling).toList ++ (executing.bind (groupError? group .execute)).toList =
        (error? result).toList := by
  unfold compileAndExecute at finished
  unfold stageCalls?
  generalize pipeline.backend.compile progress.parsed.reverse progress.env progress.debug progress.host = compiled at finished ⊢
  obtain ⟨compiling, after⟩ := compiled
  cases compiling with
  | refused | panicked =>
    cases finished
    cases execute <;> exact ⟨_, _, rfl, rfl⟩
  | returned artifacts =>
    cases execute with
    | false =>
      cases finished
      exact ⟨_, _, rfl, rfl⟩
    | true =>
      obtain ⟨⟨executing, after⟩, executed, same⟩ := Option.map_eq_some_iff.mp finished
      cases same
      simp only [executed, Option.map_some]
      refine ⟨_, _, rfl, ?_⟩
      cases executing <;> rfl

/-- The calls for a group come to its end. -/
theorem groupCalls?_account {group : ScriptGroup (Host σ)} {execute : Bool} {report : Report} {host : Host σ} {ended : GroupEnd σ}
    (finished : pipeline.groupEnd? group execute report host = some ended) :
    ∃ made, pipeline.groupCalls? group execute report host = some made ∧ made.group = group ∧
      made.units.map UnitCalls.unit = group.units ∧ (∀ calls ∈ made.units, ∃ attempt rest, calls.made = .opening attempt :: rest) ∧
      made.failures = ended.failures := by
  unfold groupEnd? at finished
  split at finished
  next => cases finished
  next env after making =>
    obtain ⟨⟨result, last⟩, done, rfl⟩ := Option.map_eq_some_iff.mp finished
    obtain ⟨compiling, executing, called, errors⟩ := pipeline.stageCalls?_errors done
    let start : Progress pipeline := ⟨[], pipeline.settings.debug, env, report, after⟩
    refine ⟨⟨group, pipeline.unitsCalls start group.units, compiling, executing⟩, ?_, rfl, unitsCalls_units pipeline _ _,
      unitsCalls_opening pipeline _ _, ?_⟩
    · rw [groupCalls?, making]
      exact Option.map_eq_some_iff.mpr ⟨_, called, rfl⟩
    rw [GroupCalls.failures, GroupCalls.groupErrors, errors, GroupCalls.unitErrors, unitsCalls_errors, GroupEnd.failures]
    cases result <;> rfl

/-- The failures of a run are those of its calls. -/
theorem calls_account {groups : List (ScriptGroup (Host σ))} {execute : Bool} {seen : List String} {report report' : Report}
    {host host' : Host σ} (built : pipeline.buildGroups execute seen report host groups = .going report' host') :
    let made := pipeline.calls execute seen report host groups
    made.map GroupCalls.group = firsts seen groups ∧
      (∀ calls ∈ made, calls.units.map UnitCalls.unit = calls.group.units ∧
        ∀ unit ∈ calls.units, ∃ attempt rest, unit.made = .opening attempt :: rest) ∧
      report'.failures = report.failures ++ made.flatMap GroupCalls.failures := by
  induction groups generalizing seen report host with
  | nil =>
    cases built
    exact ⟨rfl, fun _ inside => absurd inside List.not_mem_nil, (List.append_nil _).symm⟩
  | cons group groups ih =>
    by_cases before : group.name ∈ seen
    · rw [buildGroups_cons_seen before] at built
      rw [calls, if_pos before, firsts_cons_seen before]
      exact ih built
    · rw [buildGroups_cons_fresh before] at built
      rw [calls, if_neg before, firsts_cons_fresh before]
      split at built
      next next after first =>
        obtain ⟨ended, finished, same⟩ := pipeline.buildGroup_account first
        obtain ⟨made, called, taken, units, opened, failures⟩ := pipeline.groupCalls?_account finished
        obtain ⟨groups, attempted, total⟩ := ih built
        simp only [called, first]
        refine ⟨by rw [List.map_cons, groups, taken], List.forall_mem_cons.mpr ⟨⟨taken ▸ units, opened⟩, attempted⟩, ?_⟩
        rw [total, same, List.flatMap_cons, failures, ← List.append_assoc]
        simp [Report.add, Report.ofGroups]
      next stopped => exact absurd built (stopped _ _)

/-- The calls for the groups of a source, in a run over them. -/
def callsTo (source : Source (Host σ)) (execute : Bool) (host : Host σ) : List (GroupCalls σ pipeline.backend.Parsed) :=
  match source.groups.result with
  | .error _ => []
  | .ok groups => pipeline.calls execute [] .empty (host.reportAll source.groups.events) groups

private theorem buildGroup_escaped {group : ScriptGroup (Host σ)} {execute : Bool} {report : Report} {host after : Host σ}
    {panic : Panic} (escaped : pipeline.buildGroup group execute report host = .escaped panic after) :
    pipeline.backend.newEnvironment group.name host = (.error panic, after) := by
  rw [buildGroup_eq] at escaped
  split at escaped
  next made =>
    cases escaped
    exact made
  next =>
    unfold finishGroup at escaped
    split at escaped <;> cases escaped

/-- A panic that stops a run is one of making the environment of a group, where the groups before it have been built. No call is made
for that group and those after it. -/
theorem buildGroups_escaped {groups : List (ScriptGroup (Host σ))} {execute : Bool} {seen : List String} {report : Report}
    {host after : Host σ} {panic : Panic}
    (escaped : pipeline.buildGroups execute seen report host groups = .escaped panic after) :
    ∃ earlier group later report' host', groups = earlier ++ group :: later ∧ group.name ∉ seen ∧
      (∀ other ∈ earlier, other.name ≠ group.name) ∧
      pipeline.buildGroups execute seen report host earlier = .going report' host' ∧
      pipeline.calls execute seen report host groups = pipeline.calls execute seen report host earlier ∧
      pipeline.backend.newEnvironment group.name (host'.report .info .pipeline (loadingMessage group.name)) =
        (.error panic, after) := by
  induction groups generalizing seen report host with
  | nil => cases escaped
  | cons group groups ih =>
    by_cases before : group.name ∈ seen
    · rw [buildGroups_cons_seen before] at escaped
      obtain ⟨earlier, failing, later, report', host', rfl, fresh, apart, built, same, made⟩ := ih escaped
      refine ⟨group :: earlier, failing, later, report', host', rfl, fresh, ?_, ?_, ?_, made⟩
      · exact List.forall_mem_cons.mpr ⟨fun shared => fresh (shared ▸ before), apart⟩
      · rw [buildGroups_cons_seen before, built]
      · rw [calls, calls, if_pos before, if_pos before, same]
    · rw [buildGroups_cons_fresh before] at escaped
      split at escaped
      next next between first =>
        obtain ⟨earlier, failing, later, report', host', rfl, fresh, apart, built, same, made⟩ := ih escaped
        obtain ⟨new, fresh⟩ := not_or.mp (mt List.mem_cons.mpr fresh)
        refine ⟨group :: earlier, failing, later, report', host', rfl, fresh, ?_, ?_, ?_, made⟩
        · exact List.forall_mem_cons.mpr ⟨Ne.symm new, apart⟩
        · rw [buildGroups_cons_fresh before, first]
          exact built
        · simp only [calls, if_neg before, first]
          cases pipeline.groupCalls? group execute report (host.report .info .pipeline (loadingMessage group.name)) with
          | none => rfl
          | some made => exact congrArg (made :: ·) same
      next =>
        have made := pipeline.buildGroup_escaped escaped
        refine ⟨[], group, groups, report, host, rfl, before, nofun, rfl, ?_, made⟩
        simp only [calls, if_neg before, groupCalls?, made]

/-- How a run over listed groups ends, by the calls that it makes. With a report, it has taken the first group of each name, and what
failed is what the calls failed with. With a panic, making the environment of a group has panicked; the groups before it have been
taken in the same way, but there is no report of them, and those after it have not been taken. -/
def Caught (execute : Bool) (begun : Host σ) (groups : List (ScriptGroup (Host σ)))
    (made : List (GroupCalls σ pipeline.backend.Parsed)) : RunOutcome σ → Prop
  | .reported report _ =>
    made.map GroupCalls.group = groups.eraseDupsBy (fun a b => a.name == b.name) ∧
      report.failures = made.flatMap GroupCalls.failures
  | .escaped panic after =>
    ∃ earlier group later report host, groups = earlier ++ group :: later ∧ (∀ other ∈ earlier, other.name ≠ group.name) ∧
      pipeline.buildGroups execute [] .empty begun earlier = .going report host ∧
      made.map GroupCalls.group = earlier.eraseDupsBy (fun a b => a.name == b.name) ∧
      report.failures = made.flatMap GroupCalls.failures ∧
      pipeline.backend.newEnvironment group.name (host.report .info .pipeline (loadingMessage group.name)) = (.error panic, after)
  | .sourceFailed _ _ | .unfinished => False

end Pipeline

section
variable {σ : Type} {pipeline : Pipeline σ} {source : Source (Host σ)} {groups : List (ScriptGroup (Host σ))}

/-- A run over groups that are listed ends with a report, whichever calls of opening, scanning, parsing, compiling and executing
refuse or panic, unless making the environment of a group panics. Up to there the first group of each name is taken, with all its
units, and the failures are those of the calls, one for each that does not return and in their order: a panic in the work on a unit
is an unclassified error of that unit, and one in compiling or executing a group is an error of that group. -/
theorem run_catches (answers : ∀ artifacts host, (pipeline.backend.execute artifacts host).isSome = true)
    (listed : source.groups.result = .ok groups) (execute : Bool) (host : Host σ) :
    let made := pipeline.callsTo source execute host
    (∀ calls ∈ made, calls.units.map UnitCalls.unit = calls.group.units ∧
      ∀ unit ∈ calls.units, ∃ attempt rest, unit.made = .opening attempt :: rest) ∧
    pipeline.Caught execute (host.reportAll source.groups.events) groups made (pipeline.run source execute host) := by
  obtain ⟨⟨_, events⟩⟩ := source
  obtain rfl := listed
  simp only [Pipeline.run_listed, Pipeline.callsTo]
  cases built : pipeline.buildGroups execute [] .empty (host.reportAll events) groups with
  | escaped panic after =>
    obtain ⟨earlier, group, later, report, between, rfl, -, apart, going, same, made⟩ := pipeline.buildGroups_escaped built
    obtain ⟨taken, units, failures⟩ := pipeline.calls_account going
    rw [same]
    exact ⟨units, earlier, group, later, report, between, rfl, apart, going, by rw [taken, firsts_nil], failures, made⟩
  | unfinished =>
    obtain ⟨-, artifacts, late, stuck⟩ := Pipeline.buildGroups_unfinished pipeline built
    have answered := answers artifacts late
    rw [stuck] at answered
    cases answered
  | going report after =>
    obtain ⟨taken, units, failures⟩ := pipeline.calls_account built
    exact ⟨units, by rw [taken, firsts_nil], failures⟩

end

/-! ## A backend that panics where it is told to -/

/-- What a unit has for its content to make the touchy backend panic. -/
inductive Mark
  | parsePanic
  | compilePanic
  | executePanic

/-- The content. -/
def Mark.content : Mark → String
  | parsePanic => "PARSE_PANIC"
  | compilePanic => "COMPILE_PANIC"
  | executePanic => "RUNTIME_PANIC"

/-- A backend that panics at units with a mark for their content. It stores whether executing is to panic. -/
def touchyBackend : Backend (Host Unit) where
  Environment := Unit
  Parsed := ParseRequest
  newEnvironment _ host := (.ok (), host)
  parse request env host :=
    match request.stream with
    | .error error => (.refused (.io error), env, host)
    | .ok bytes =>
      if bytes = Mark.parsePanic.content.toUTF8.toList then
        (.panicked ⟨some s!"front-end crashed on {request.unit}"⟩, env, host)
      else (.returned request, env, host)
  compile units _ _ host :=
    let marked (mark : Mark) := units.any fun request =>
      match request.stream with
      | .ok bytes => bytes == mark.content.toUTF8.toList
      | .error _ => false
    if marked .compilePanic then (.panicked ⟨none⟩, host)
    else (.returned (if marked .executePanic then (∅ : ArtifactSet).insert "panics" "" else ∅), host)
  execute artifacts host :=
    some (if artifacts.contains "panics" then .panicked ⟨some "entry point crashed"⟩ else .returned (), host)

/-- A preprocessor that panics at units of one name. -/
def touchyPreprocessor : Preprocessor (Host Unit) where
  scan unit stream host :=
    if unit = "scan.zs" then (.panicked ⟨some "scanner crashed"⟩, host) else Preprocessor.directives.scan unit stream host

/-- The two of them. -/
def touchyPipeline : Pipeline Unit := ⟨touchyBackend, touchyPreprocessor, .initial, "tweaker"⟩

/-- Groups with a panic at each stage, and what comes after it. -/
def touchyGroups : List (ScriptGroup (Host Unit)) :=
  [⟨"units", [⟨"open.zs", fun host => (.panicked ⟨none⟩, host)⟩, .ofBytes "scan.zs" [], .ofBytes "a.zs" Mark.parsePanic.content.toUTF8.toList,
      .ofBytes "b.zs" []]⟩,
    ⟨"compile", [.ofBytes "c.zs" Mark.compilePanic.content.toUTF8.toList]⟩,
    ⟨"execute", [.ofBytes "d.zs" Mark.executePanic.content.toUTF8.toList]⟩, ⟨"last", [.ofBytes "e.zs" []]⟩]

/-- The touchy pipeline with a backend that panics at making the environment of one group too. -/
def brittlePipeline : Pipeline Unit :=
  { touchyPipeline with
    backend := { touchyBackend with
      newEnvironment := fun group host =>
        (if group = "broken" then .error ⟨some "no environment"⟩ else .ok (), host) } }

/-- Three groups, the first with a unit that panics, and the second one that has no environment. -/
def brittleGroups : List (ScriptGroup (Host Unit)) :=
  [⟨"first", [.ofBytes "a.zs" Mark.parsePanic.content.toUTF8.toList]⟩, ⟨"broken", [.ofBytes "b.zs" []]⟩,
    ⟨"last", [.ofBytes "c.zs" []]⟩]

theorem touchyGroups_run_catches :
    let made := touchyPipeline.callsTo (.ofGroups touchyGroups) true (.initial ())
    (∀ calls ∈ made, calls.units.map UnitCalls.unit = calls.group.units ∧
      ∀ unit ∈ calls.units, ∃ attempt rest, unit.made = .opening attempt :: rest) ∧
    ∃ report after, touchyPipeline.run (.ofGroups touchyGroups) true (.initial ()) = .reported report after ∧
      made.map GroupCalls.group = touchyGroups.eraseDupsBy (fun a b => a.name == b.name) ∧
      report.failures =
        [.unit (.unclassified "open.zs" "panicked"), .unit (.unclassified "scan.zs" "panicked: scanner crashed"),
          .unit (.unclassified "a.zs" "panicked: front-end crashed on a.zs"), .group ⟨"compile", .compile, "panicked"⟩,
          .group ⟨"execute", .execute, "panicked: entry point crashed"⟩] := by
  have answers : ∀ artifacts host, (touchyPipeline.backend.execute artifacts host).isSome = true := fun _ _ => rfl
  have listed : (Source.ofGroups touchyGroups).groups.result = .ok touchyGroups := rfl
  obtain ⟨units, caught⟩ := run_catches answers listed true (.initial ())
  refine ⟨units, ?_⟩
  cases ran : touchyPipeline.run (.ofGroups touchyGroups) true (.initial ()) with
  | reported report after =>
    rw [ran] at caught
    exact ⟨report, after, rfl, caught.1, caught.2.trans (by decide +kernel)⟩
  | escaped panic after =>
    rw [ran] at caught
    obtain ⟨_, _, _, _, _, -, -, -, -, -, made⟩ := caught
    cases made
  | sourceFailed | unfinished =>
    rw [ran] at caught
    exact caught.elim

/-- The panic that ends a run, if one does. -/
def Pipeline.RunOutcome.panic? {σ : Type} : RunOutcome σ → Option Panic
  | .escaped panic _ => some panic
  | _ => none

/-- A panic in making the environment of a group ends the run without a report: what failed before is lost, though it was caught,
and the group after it is not taken. -/
theorem environment_panic_escapes :
    (brittlePipeline.run (.ofGroups brittleGroups) true (.initial ())).panic? = some ⟨some "no environment"⟩ ∧
      (brittlePipeline.callsTo (.ofGroups brittleGroups) true (.initial ())).map (fun calls => (calls.group.name, calls.failures)) =
        [("first", [.unit (.unclassified "a.zs" "panicked: front-end crashed on a.zs")])] ∧
      brittleGroups.map ScriptGroup.name = ["first", "broken", "last"] := by
  refine ⟨?_, ?_, rfl⟩
  · decide +kernel
  · decide +kernel

end Scriptorium.Build
