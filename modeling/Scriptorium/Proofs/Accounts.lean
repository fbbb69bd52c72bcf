import Scriptorium.Proofs.GroupSequences

/-!
# What a report accounts for

`Pipeline.history` says what becomes of each group that a run builds and of each of its units, without counting anything. The
report of a run is the account of its history (`buildGroups_account`): every unit has one end, every group that is no duplicate
has one end, and what failed stands in the order in which it was taken (`run_accounts`).
-/
namespace Scriptorium.Build

/-- The unit that an error names. -/
def UnitError.unit : UnitError → String
  | sourceIo unit _ => unit
  | parse file _ _ => file
  | unclassified unit _ => unit

/-- What becomes of a unit. -/
inductive UnitEnd
  | parsed
  | skipped
  | failed (error : UnitError)
deriving DecidableEq

namespace UnitEnd

/-- The end of a unit by what processing it gives. -/
def of {α : Type} : Except UnitError (UnitOutcome α) → UnitEnd
  | .ok (.parsed _ _) => parsed
  | .ok (.skipped _) => skipped
  | .error error => failed error

/-- The error of a unit that fails. -/
def error? : UnitEnd → Option UnitError
  | failed error => some error
  | _ => none

end UnitEnd

/-- What becomes of a group that is built: the ends of its units, in their order, and what compiling and executing it gives. -/
structure GroupEnd (σ : Type) where
  group : ScriptGroup (Host σ)
  units : List UnitEnd
  result : Except GroupError Unit

namespace GroupEnd

variable {σ : Type}

/-- The error of a group that fails. -/
def error? (ended : GroupEnd σ) : Option GroupError :=
  match ended.result with
  | .ok () => none
  | .error error => some error

/-- The failures of a group: those of its units, and then its own. -/
def failures (ended : GroupEnd σ) : List Failure :=
  (ended.units.filterMap UnitEnd.error?).map .unit ++ (ended.error?.map .group).toList

end GroupEnd

namespace Report

/-- The report of units that came to some ends. -/
def ofUnits (ends : List UnitEnd) : Report where
  failures := (ends.filterMap UnitEnd.error?).map .unit
  groupsBuilt := 0
  groupsSkipped := 0
  unitsParsed := ends.count .parsed
  unitsSkipped := ends.count .skipped

variable {σ : Type}

/-- The report of groups that came to some ends, and of others that were left out. -/
def ofGroups (leftOut : Nat) (ends : List (GroupEnd σ)) : Report where
  failures := ends.flatMap GroupEnd.failures
  groupsBuilt := ends.countP (·.error?.isNone)
  groupsSkipped := leftOut
  unitsParsed := (ends.flatMap GroupEnd.units).count .parsed
  unitsSkipped := (ends.flatMap GroupEnd.units).count .skipped

private theorem ofUnits_cons (first : UnitEnd) (ends : List UnitEnd) : ofUnits (first :: ends) = (ofUnits [first]).add
    (ofUnits ends) := by
  cases first with
  | parsed | skipped | failed error =>
    simp [ofUnits, add, UnitEnd.error?, List.filterMap_cons, Nat.add_comm 1]

private theorem ofGroups_cons (leftOut : Nat) (first : GroupEnd σ) (ends : List (GroupEnd σ)) :
    ofGroups leftOut (first :: ends) = (ofGroups 0 [first]).add (ofGroups leftOut ends) := by
  simp [ofGroups, add, List.countP_cons, Nat.add_comm]

/-- A group adds what its units add, and then its own end. -/
theorem ofGroups_singleton (ended : GroupEnd σ) :
    ofGroups 0 [ended] = (ofUnits ended.units).add
      ⟨(ended.error?.map .group).toList, if ended.error?.isNone then 1 else 0, 0, 0, 0⟩ := by
  simp [ofGroups, ofUnits, add, GroupEnd.failures, List.countP_cons]

/-- Each unit is counted once. -/
theorem ofUnits_total (ends : List UnitEnd) :
    ends.count .parsed + ends.count .skipped + (ends.filterMap UnitEnd.error?).length = ends.length := by
  induction ends with
  | nil => rfl
  | cons first ends ih =>
    cases first with
    | parsed | skipped | failed error =>
      simp [UnitEnd.error?, List.filterMap_cons]
      omega

private theorem unitFailures_ofGroups (leftOut : Nat) (ends : List (GroupEnd σ)) :
    (ofGroups leftOut ends).unitFailures = (ends.flatMap GroupEnd.units).filterMap UnitEnd.error? := by
  simp only [unitFailures, ofGroups, GroupEnd.failures, List.filterMap_flatMap, List.filterMap_append, List.filterMap_map]
  congr 1
  funext ended
  cases ended.error? <;> simp

private theorem groupFailures_ofGroups (leftOut : Nat) (ends : List (GroupEnd σ)) :
    (ofGroups leftOut ends).groupFailures = ends.filterMap GroupEnd.error? := by
  simp only [groupFailures, ofGroups, GroupEnd.failures, List.filterMap_flatMap, List.filterMap_append, List.filterMap_map]
  induction ends with
  | nil => rfl
  | cons ended ends ih =>
    rw [List.flatMap_cons, ih]
    cases failed : ended.error? <;> simp [failed]

end Report

/-! ## What happens in a run -/

namespace Pipeline

variable {σ : Type} (pipeline : Pipeline σ)

/-- The ends of units that are taken one after the other. -/
def unitEnds (progress : Progress pipeline) : List (ScriptUnit (Host σ)) → List UnitEnd
  | [] => []
  | unit :: units =>
    .of (pipeline.processUnit unit progress.env progress.host).1 :: unitEnds (pipeline.addUnit progress unit) units

/-- The end of a group, unless executing it takes too long. -/
def groupEnd? (group : ScriptGroup (Host σ)) (execute : Bool) (report : Report) (host : Host σ) : Option (GroupEnd σ) :=
  match pipeline.backend.newEnvironment group.name host with
  | (.error _, _) => none
  | (.ok env, host) =>
    let start : Progress pipeline := ⟨[], pipeline.settings.debug, env, report, host⟩
    (pipeline.compileAndExecute group.name execute (group.units.foldl (addUnit pipeline) start)).map fun (result, _) =>
      ⟨group, pipeline.unitEnds start group.units, result⟩

/-- The ends of the groups that a run builds; `seen` holds the names of those before. -/
def history (execute : Bool) (seen : List String) (report : Report) (host : Host σ) : List (ScriptGroup (Host σ)) → List (GroupEnd σ)
  | [] => []
  | group :: groups =>
    if group.name ∈ seen then
      history execute seen report.countDuplicate
        (host.report .debug .pipeline s!"Skipping duplicate group {group.name}") groups
    else
      let host := host.report .info .pipeline (loadingMessage group.name)
      match pipeline.groupEnd? group execute report host, pipeline.buildGroup group execute report host with
      | some ended, .going report host => ended :: history execute (group.name :: seen) report host groups
      | _, _ => []

/-- A unit adds its end to the report. -/
theorem addUnit_report (progress : Progress pipeline) (unit : ScriptUnit (Host σ)) :
    (pipeline.addUnit progress unit).report =
      progress.report.add (.ofUnits [.of (pipeline.processUnit unit progress.env progress.host).1]) := by
  unfold addUnit
  obtain ⟨result, env, host⟩ := pipeline.processUnit unit progress.env progress.host
  match result with
  | .ok (.parsed parsed debug) | .ok (.skipped reason) | .error error =>
    simp [UnitEnd.of, Report.add, Report.ofUnits, UnitEnd.error?, Report.countParsed, Report.countSkipped, record, Report.record]

/-- Units add their ends to the report. -/
theorem units_report (units : List (ScriptUnit (Host σ))) (progress : Progress pipeline) :
    (units.foldl (addUnit pipeline) progress).report = progress.report.add (.ofUnits (pipeline.unitEnds progress units)) := by
  induction units generalizing progress with
  | nil => exact (Report.add_empty progress.report).symm
  | cons unit units ih =>
    rw [List.foldl_cons, ih, addUnit_report, Report.add_assoc, unitEnds, ← Report.ofUnits_cons]

private theorem groupEnd?_group {group : ScriptGroup (Host σ)} {execute : Bool} {report : Report} {host : Host σ}
    {ended : GroupEnd σ} (finished : pipeline.groupEnd? group execute report host = some ended) : ended.group = group := by
  unfold groupEnd? at finished
  split at finished
  · cases finished
  · obtain ⟨_, -, rfl⟩ := Option.map_eq_some_iff.mp finished
    rfl

/-- A group whose building goes on comes to an end, which it adds to the report. -/
theorem buildGroup_account {group : ScriptGroup (Host σ)} {execute : Bool} {report report' : Report} {host host' : Host σ}
    (built : pipeline.buildGroup group execute report host = .going report' host') :
    ∃ ended, pipeline.groupEnd? group execute report host = some ended ∧ report' = report.add (.ofGroups 0 [ended]) := by
  rw [buildGroup_eq] at built
  unfold groupEnd?
  cases made : pipeline.backend.newEnvironment group.name host with
  | mk attempt after =>
    rw [made] at built
    cases attempt with
    | error panic => cases built
    | ok env =>
      simp only [finishGroup] at built
      have units := pipeline.units_report group.units ⟨[], pipeline.settings.debug, env, report, after⟩
      simp only
      generalize pipeline.compileAndExecute group.name execute _ = finished at built ⊢
      rcases finished with _ | ⟨done | error, last⟩
      · cases built
      all_goals
        cases built
        refine ⟨_, rfl, ?_⟩
        rw [Report.ofGroups_singleton, ← Report.add_assoc, ← units]
        simp [Report.add, Report.countBuilt, Report.record, GroupEnd.error?]

private theorem forGroup_group {α : Type} {group : String} {stage : Stage} {attempt : Attempt String α} {error : GroupError}
    (failed : forGroup group stage attempt = .error error) : error.group = group := by
  cases attempt with
  | returned value => cases failed
  | refused reason | panicked panic =>
    cases failed
    rfl

/-- A group that fails is named by its error. -/
theorem compileAndExecute_group {group : String} {execute : Bool} {progress : Progress pipeline} {error : GroupError}
    {host : Host σ} (finished : pipeline.compileAndExecute group execute progress = some (.error error, host)) :
    error.group = group := by
  unfold compileAndExecute at finished
  obtain ⟨attempt, after⟩ := pipeline.backend.compile progress.parsed.reverse progress.env progress.debug progress.host
  simp only at finished
  split at finished
  · rename_i error' failed
    cases finished
    exact forGroup_group failed
  · split at finished
    · obtain ⟨⟨attempt, last⟩, -, same⟩ := Option.map_eq_some_iff.mp finished
      exact forGroup_group (Prod.mk.inj same).1
    · cases finished

/-- Only executing may take too long. -/
theorem compileAndExecute_none {group : String} {execute : Bool} {progress : Progress pipeline}
    (stuck : pipeline.compileAndExecute group execute progress = none) :
    execute = true ∧ ∃ artifacts host, pipeline.backend.execute artifacts host = none := by
  unfold compileAndExecute at stuck
  obtain ⟨attempt, after⟩ := pipeline.backend.compile progress.parsed.reverse progress.env progress.debug progress.host
  simp only at stuck
  split at stuck
  · cases stuck
  · rename_i artifacts _
    split at stuck
    · rename_i wanted
      exact ⟨wanted, artifacts, _, Option.map_eq_none_iff.mp stuck⟩
    · cases stuck

private theorem buildGroup_unfinished {group : ScriptGroup (Host σ)} {execute : Bool} {report : Report} {host : Host σ}
    (stuck : pipeline.buildGroup group execute report host = .unfinished) :
    execute = true ∧ ∃ artifacts host, pipeline.backend.execute artifacts host = none := by
  rw [buildGroup_eq] at stuck
  split at stuck
  · cases stuck
  · unfold finishGroup at stuck
    split at stuck
    · rename_i late
      exact pipeline.compileAndExecute_none late
    · cases stuck
    · cases stuck

theorem buildGroups_unfinished {groups : List (ScriptGroup (Host σ))} {execute : Bool} {seen : List String} {report : Report}
    {host : Host σ} (stuck : pipeline.buildGroups execute seen report host groups = .unfinished) :
    execute = true ∧ ∃ artifacts host, pipeline.backend.execute artifacts host = none := by
  induction groups generalizing seen report host with
  | nil => cases stuck
  | cons group groups ih =>
    by_cases before : group.name ∈ seen
    · rw [buildGroups_cons_seen before] at stuck
      exact ih stuck
    · rw [buildGroups_cons_fresh before] at stuck
      split at stuck
      · exact ih stuck
      · exact pipeline.buildGroup_unfinished stuck

/-- The ends of a run are those of the groups that are no duplicates, in their order, and they make its report together with the
number of duplicates. -/
theorem buildGroups_account {groups : List (ScriptGroup (Host σ))} {execute : Bool} {seen : List String}
    {report report' : Report} {host host' : Host σ}
    (built : pipeline.buildGroups execute seen report host groups = .going report' host') :
    (pipeline.history execute seen report host groups).map GroupEnd.group = firsts seen groups ∧
      ∃ leftOut, leftOut + (pipeline.history execute seen report host groups).length = groups.length ∧
        report' = report.add (.ofGroups leftOut (pipeline.history execute seen report host groups)) := by
  induction groups generalizing seen report host with
  | nil =>
    cases built
    exact ⟨rfl, 0, rfl, (Report.add_empty _).symm⟩
  | cons group groups ih =>
    by_cases before : group.name ∈ seen
    · rw [buildGroups_cons_seen before] at built
      obtain ⟨taken, leftOut, count, same⟩ := ih built
      rw [history, if_pos before, firsts_cons_seen before]
      refine ⟨taken, leftOut + 1, by rw [List.length_cons, ← count]; omega, ?_⟩
      rw [same]
      simp only [Report.add, Report.ofGroups, Report.countDuplicate, Nat.add_assoc, Nat.add_comm 1]
    · rw [buildGroups_cons_fresh before] at built
      rw [history, if_neg before, firsts_cons_fresh before]
      simp only
      split at built
      next report₁ host₁ first =>
        obtain ⟨ended, finished, same₁⟩ := pipeline.buildGroup_account first
        obtain ⟨taken, leftOut, count, same⟩ := ih built
        rw [finished, first]
        simp only
        refine ⟨?_, leftOut, by rw [List.length_cons, List.length_cons, ← count]; omega, ?_⟩
        · rw [List.map_cons, taken, groupEnd?_group pipeline finished]
        · rw [same, same₁, Report.add_assoc, ← Report.ofGroups_cons]
      next stopped => exact absurd built (stopped _ _)

end Pipeline

private theorem forUnit_unit {ε α : Type} {unit : String} {refusal : ε → UnitError} {attempt : Attempt ε α} {error : UnitError}
    (named : ∀ refused, attempt = .refused refused → (refusal refused).unit = unit)
    (failed : forUnit unit refusal attempt = .error error) : error.unit = unit := by
  cases attempt with
  | returned value => cases failed
  | refused refused =>
    cases failed
    exact named refused rfl
  | panicked panic =>
    cases failed
    rfl

section
variable {σ : Type} {parts : ScriptHost σ} {preprocessor : Preprocessor (Host σ)} {settings : Settings} {loader : String}

private theorem openUnit_unit {unit : ScriptUnit (Host σ)} {host : Host σ} {error : UnitError}
    (failed : (Pipeline.openUnit unit host).1 = .error error) : error.unit = unit.name :=
  forUnit_unit (fun _ _ => rfl) failed

/-- A unit that is no unit of the language is named by the error. -/
theorem parse_unit {request : ParseRequest} {env : Script.Environment} {host : Host σ} {error : FrontError}
    (refused : (ScriptHost.parse request env host).1 = .refused error) :
    (error.toUnitError request.unit).unit = request.unit := by
  unfold ScriptHost.parse at refused
  split at refused
  · cases refused
    rfl
  · split at refused
    · cases refused
      rfl
    · simp only at refused
      split at refused
      · cases refused
      · cases refused
        rfl

private theorem scanUnit_unit {unit : ScriptUnit (Host σ)} {host : Host σ} {error : UnitError}
    (failed : ((parts.pipeline preprocessor settings loader).scanUnit unit host).1 = .error error) : error.unit = unit.name := by
  unfold Pipeline.scanUnit at failed
  split at failed
  next opened =>
    cases failed
    exact openUnit_unit (congrArg Prod.fst opened)
  next => exact forUnit_unit (fun _ _ => rfl) failed

private theorem parseUnit_unit {unit : ScriptUnit (Host σ)} {directives : Directives} {env : Script.Environment} {host : Host σ}
    {error : UnitError}
    (failed : ((parts.pipeline preprocessor settings loader).parseUnit unit directives env host).1 = .error error) :
    error.unit = unit.name := by
  unfold Pipeline.parseUnit at failed
  split at failed
  next opened =>
    cases failed
    exact openUnit_unit (congrArg Prod.fst opened)
  next => exact forUnit_unit (fun _ refused => parse_unit refused) failed

/-- A unit that fails is named by its error. -/
theorem processUnit_unit {unit : ScriptUnit (Host σ)} {env : Script.Environment} {host : Host σ} {error : UnitError}
    (failed : ((parts.pipeline preprocessor settings loader).processUnit unit env host).1 = .error error) :
    error.unit = unit.name := by
  unfold Pipeline.processUnit at failed
  split at failed
  next scanned =>
    cases failed
    exact scanUnit_unit (congrArg Prod.fst scanned)
  next directives between scanned =>
    split at failed
    · cases failed
    · cases parsed : (parts.pipeline preprocessor settings loader).parseUnit unit directives env between with
      | mk result rest =>
        rw [parsed] at failed
        cases result with
        | ok made => cases failed
        | error missed =>
          cases failed
          exact parseUnit_unit (congrArg Prod.fst parsed)

/-- The ends of units name those units that fail. -/
theorem unitEnds_unit (units : List (ScriptUnit (Host σ))) (progress : Pipeline.Progress (parts.pipeline preprocessor settings loader)) :
    List.Forall₂ (fun unit ended => ∀ error, ended = UnitEnd.failed error → error.unit = unit.name) units
      (Pipeline.unitEnds _ progress units) := by
  induction units generalizing progress with
  | nil => exact .nil
  | cons unit units ih =>
    refine .cons ?_ (ih _)
    intro error failed
    cases processed : ((parts.pipeline preprocessor settings loader).processUnit unit progress.env progress.host).1 with
    | ok outcome =>
      rw [processed] at failed
      cases outcome <;> cases failed
    | error error =>
      rw [processed] at failed
      cases failed
      exact processUnit_unit processed

/-- The end of a group as it has to be: with one end for each unit, in their order, and errors that name whom they are about. -/
structure GroupEnd.Proper (ended : GroupEnd σ) : Prop where
  units : List.Forall₂ (fun unit last => ∀ error, last = UnitEnd.failed error → error.unit = unit.name) ended.group.units ended.units
  result : ∀ error, ended.result = .error error → error.group = ended.group.name

private theorem groupEnd?_proper {group : ScriptGroup (Host σ)} {execute : Bool} {report : Report} {host : Host σ}
    {ended : GroupEnd σ}
    (finished : (parts.pipeline preprocessor settings loader).groupEnd? group execute report host = some ended) : ended.Proper := by
  unfold Pipeline.groupEnd? at finished
  split at finished
  · cases finished
  · obtain ⟨⟨result, after⟩, compiled, rfl⟩ := Option.map_eq_some_iff.mp finished
    refine ⟨unitEnds_unit _ _, ?_⟩
    rintro error rfl
    exact Pipeline.compileAndExecute_group _ compiled

theorem history_proper {groups : List (ScriptGroup (Host σ))} {execute : Bool} {seen : List String} {report : Report}
    {host : Host σ} {ended : GroupEnd σ}
    (present : ended ∈ (parts.pipeline preprocessor settings loader).history execute seen report host groups) : ended.Proper := by
  induction groups generalizing seen report host with
  | nil => cases present
  | cons group groups ih =>
    rw [Pipeline.history] at present
    split at present
    · exact ih present
    · simp only at present
      split at present
      next finished _ =>
        rcases List.mem_cons.mp present with rfl | later
        · exact groupEnd?_proper finished
        · exact ih later
      next => cases present

end

/-! ## The report of a run -/

/-- What a report says of the groups that were listed, where the groups that are built came to some ends. -/
structure Accounts {σ : Type} (groups : List (ScriptGroup (Host σ))) (ends : List (GroupEnd σ)) (report : Report) : Prop where
  /-- There is one end for each group that is no duplicate, in their order. -/
  taken : ends.map GroupEnd.group = groups.eraseDupsBy fun a b => a.name == b.name
  /-- In each of them there is one end for each unit, in their order, and errors name whom they are about. -/
  proper : ∀ ended ∈ ends, ended.Proper
  /-- The failures stand in the order of the ends: those of the units of a group, then its own. -/
  failures : report.failures = ends.flatMap GroupEnd.failures
  groupsBuilt : report.groupsBuilt = ends.countP (·.error?.isNone)
  unitsParsed : report.unitsParsed = (ends.flatMap GroupEnd.units).count .parsed
  unitsSkipped : report.unitsSkipped = (ends.flatMap GroupEnd.units).count .skipped
  allGroups : report.groupsBuilt + report.groupsSkipped + report.groupFailures.length = groups.length
  allUnits : report.unitsParsed + report.unitsSkipped + report.unitFailures.length =
    ((groups.eraseDupsBy fun a b => a.name == b.name).map (·.units.length)).sum
  success : report.success = true ↔ ∀ ended ∈ ends, ended.error? = none ∧ ∀ last ∈ ended.units, last.error? = none

/-- Each group that is built is counted once. -/
theorem ends_total {σ : Type} (ends : List (GroupEnd σ)) :
    ends.countP (·.error?.isNone) + (ends.filterMap GroupEnd.error?).length = ends.length := by
  induction ends with
  | nil => rfl
  | cons ended ends ih =>
    cases failed : ended.error? with
    | none | some error =>
      simp [failed]
      omega

private theorem failures_eq_nil {σ : Type} {ended : GroupEnd σ} :
    ended.failures = [] ↔ ended.error? = none ∧ ∀ last ∈ ended.units, last.error? = none := by
  simp [GroupEnd.failures, List.filterMap_eq_nil_iff, and_comm]

/-- A report that is made of the ends of groups, and of the number of the others, accounts for all groups. -/
theorem accounts_of_ends {σ : Type} {groups : List (ScriptGroup (Host σ))} {ends : List (GroupEnd σ)} {leftOut : Nat}
    (taken : ends.map GroupEnd.group = groups.eraseDupsBy fun a b => a.name == b.name) (proper : ∀ ended ∈ ends, ended.Proper)
    (count : leftOut + ends.length = groups.length) : Accounts groups ends (.ofGroups leftOut ends) where
  taken := taken
  proper := proper
  failures := rfl
  groupsBuilt := rfl
  unitsParsed := rfl
  unitsSkipped := rfl
  allGroups := by
    have total := ends_total ends
    rw [Report.groupFailures_ofGroups]
    simp only [Report.ofGroups]
    omega
  allUnits := by
    have lengths : (ends.flatMap GroupEnd.units).length = (ends.map fun ended => ended.group.units.length).sum := by
      rw [List.length_flatMap]
      exact congrArg List.sum (List.map_congr_left fun ended present => (proper ended present).units.length_eq.symm)
    rw [Report.unitFailures_ofGroups, ← taken, List.map_map, Function.comp_def, ← lengths]
    exact Report.ofUnits_total _
  success := by
    simp only [Report.success, Report.ofGroups, List.isEmpty_iff, List.flatMap_eq_nil_iff, failures_eq_nil]

section
variable {σ : Type} {parts : ScriptHost σ} {preprocessor : Preprocessor (Host σ)}

/-- What a run over the groups of a source comes to: a report that accounts for all of them, or nothing where executing
something takes too long for an answer. -/
def Accounted (pipeline : Pipeline σ) (source : Source (Host σ)) (groups : List (ScriptGroup (Host σ))) (execute : Bool)
    (host : Host σ) : Prop :=
  match pipeline.run source execute host with
  | .reported report _ =>
    Accounts groups (pipeline.history execute [] .empty (host.reportAll source.groups.events) groups) report
  | .unfinished => execute = true ∧ ∃ artifacts host, pipeline.backend.execute artifacts host = none
  | _ => False

/-- The report of a run accounts for every group that is listed and for every unit of those that are no duplicates. -/
theorem run_accounts {source : Source (Host σ)} {groups : List (ScriptGroup (Host σ))} (listed : source.groups.result = .ok groups)
    (settings : Settings) (loader : String) (execute : Bool) (host : Host σ) :
    Accounted (parts.pipeline preprocessor settings loader) source groups execute host := by
  obtain ⟨⟨_, events⟩⟩ := source
  obtain rfl := listed
  let pipeline := parts.pipeline preprocessor settings loader
  simp only [Accounted, Pipeline.run_listed]
  cases built : pipeline.buildGroups execute [] .empty (host.reportAll events) groups with
  | escaped panic after => exact absurd built (buildGroups_ne_escaped _ _ _ _ _ _ _ _ _)
  | unfinished => exact pipeline.buildGroups_unfinished built
  | going report after =>
    obtain ⟨taken, leftOut, count, same⟩ := pipeline.buildGroups_account built
    rw [Report.empty_add] at same
    subst same
    exact accounts_of_ends (taken.trans (firsts_nil groups)) (fun _ => history_proper) count

end

theorem repeatedSources_run_accounts :
    Accounted (contentParts.pipeline .directives .initial "tweaker") (.cascade repeatedSources)
      (groupsOf (contentScripts ++ contentScripts.reverse)) true (.initial ∅) :=
  run_accounts rfl .initial "tweaker" true (.initial ∅)

end Scriptorium.Build
