import Scriptorium.Proofs.Accounts
import Scriptorium.Proofs.NativeCalls

/-!
# What a group contributes

A run leaves a report and a host. What each group has part in them is told apart here: the ends of its units, what compiling and
executing it comes to, the artifacts, the calls of natives that its scripts make, and the globals that they leave. The report adds
up the contributions (`run_contributed`).
-/
namespace Scriptorium.Build

open Std (HashMap)

/-- What a group contributes to a run: the ends of its units, in their order, what compiling and executing it comes to, what it is
compiled to, the calls of natives that its scripts make, and the globals that they leave when they come to an end. There is no
result where executing takes too long for an answer. -/
structure Contribution (σ : Type) where
  group : ScriptGroup (Host σ)
  units : List UnitEnd
  result : Option (Except GroupError Unit)
  artifacts : Attempt String ArtifactSet
  calls : List NativeCall
  globals : Option (HashMap String Value)

namespace Contribution

variable {σ : Type}

/-- The end of the group, if there is one. -/
def end? (contribution : Contribution σ) : Option (GroupEnd σ) :=
  contribution.result.map fun result => ⟨contribution.group, contribution.units, result⟩

end Contribution

namespace ScriptHost

variable {σ : Type} (parts : ScriptHost σ)

/-- What is run of a group, if anything. -/
def program? (execute : Bool) : Attempt String ArtifactSet → Option Machine.Program
  | .returned artifacts => if execute then (Machine.Program.load artifacts).toOption else none
  | _ => none

/-- What a group contributes by what it is compiled to, and what this and its execution come to. -/
def contributionOf (group : ScriptGroup (Host σ)) (execute : Bool) (units : List UnitEnd)
    (result : Option (Except GroupError Unit)) (compiled : Attempt String ArtifactSet × Host σ) : Contribution σ :=
  let program := program? execute compiled.1
  { group
    units
    result
    artifacts := compiled.1
    calls := (program.map fun program => Machine.Memory.initial.calls program parts.natives parts.steps compiled.2).getD []
    globals := program.bind fun program =>
      (Machine.Memory.initial.run program parts.natives parts.steps compiled.2).map (·.memory.globals) }

variable (preprocessor : Preprocessor (Host σ)) (settings : Settings) (loader : String)

/-- Where the work on a group begins. -/
def outset (group : String) (report : Report) (host : Host σ) : Pipeline.Progress (parts.pipeline preprocessor settings loader) :=
  ⟨[], settings.debug, .initial group parts.natives.signatures parts.brackets, report, host⟩

/-- What a group contributes when it is built. -/
def contribution (group : ScriptGroup (Host σ)) (execute : Bool) (report : Report) (host : Host σ) : Contribution σ :=
  let pipeline := parts.pipeline preprocessor settings loader
  let start := parts.outset preprocessor settings loader group.name report host
  let done := group.units.foldl pipeline.addUnit start
  parts.contributionOf group execute (pipeline.unitEnds start group.units)
    ((pipeline.compileAndExecute group.name execute done).map Prod.fst)
    (compile done.parsed.reverse done.env done.debug done.host)

/-- What the groups contribute that are taken; `seen` holds the names of those before. Only the last one may have no result. -/
def contributions (execute : Bool) (seen : List String) (report : Report) (host : Host σ) :
    List (ScriptGroup (Host σ)) → List (Contribution σ)
  | [] => []
  | group :: groups =>
    if group.name ∈ seen then
      contributions execute seen report.countDuplicate
        (host.report .debug .pipeline s!"Skipping duplicate group {group.name}") groups
    else
      let host := host.report .info .pipeline (Pipeline.loadingMessage group.name)
      parts.contribution preprocessor settings loader group execute report host ::
        match (parts.pipeline preprocessor settings loader).buildGroup group execute report host with
        | .going report host => contributions execute (group.name :: seen) report host groups
        | _ => []

end ScriptHost

section
variable {σ : Type} {like : Host σ → Host σ → Prop}

/-- Units come to the same ends on like hosts. -/
theorem Pipeline.unitEnds_like {pipeline : Pipeline σ} (respects : pipeline.RespectsBuilding like)
    {reports : Report → Report → Prop} (adding : Adding reports) {units : List (ScriptUnit (Host σ))}
    (opens : ∀ unit ∈ units, Scriptorium.Respects like unit.openStream) {progress progress' : Progress pipeline}
    (alike : progress.Like reports like progress') : pipeline.unitEnds progress units = pipeline.unitEnds progress' units := by
  induction units generalizing progress progress' with
  | nil => rfl
  | cons unit units ih =>
    obtain ⟨first, rest⟩ := List.forall_mem_cons.mp opens
    obtain ⟨result, _, _, _, processed, processed', -⟩ := processUnit_like respects first progress.env alike.host
    rw [unitEnds, unitEnds, ih rest (addUnit_like respects adding first alike), ← alike.env, processed, processed']

theorem SameAnswer.map_fst {η α : Type} {like : η → η → Prop} {answer answer' : Option (α × η)}
    (same : Option.Rel (SameAnswer like) answer answer') : answer'.map Prod.fst = answer.map Prod.fst := by
  cases same with
  | none => rfl
  | some same =>
    obtain ⟨_, _, _, rfl, rfl, -⟩ := same
    rfl

private theorem sameGlobals {η : Type} {like : η → η → Prop} {ended ended' : Option (Machine.Ended η)}
    (same : Option.Rel (Machine.Ended.Like like) ended ended') :
    ended'.map (·.memory.globals) = ended.map (·.memory.globals) := by
  cases same with
  | none => rfl
  | some same => exact congrArg (fun memory => some memory.globals) same.memory.symm

variable {parts : ScriptHost σ} {preprocessor : Preprocessor (Host σ)} {settings : Settings} {loader : String}
  {execute : Bool} {seen : List String} {report report' : Report} {host host' : Host σ}

/-- From the same answer of the compiler and like hosts the same is contributed. -/
theorem contributionOf_like (natives : parts.natives.Respect like) (group : ScriptGroup (Host σ)) {units units' : List UnitEnd}
    (sameUnits : units' = units) {result result' : Option (Except GroupError Unit)} (sameResult : result' = result)
    {compiled compiled' : Attempt String ArtifactSet × Host σ} (same : SameAnswer like compiled compiled') :
    parts.contributionOf group execute units' result' compiled' = parts.contributionOf group execute units result compiled := by
  subst sameUnits sameResult
  obtain ⟨attempt, after, after', rfl, rfl, alike⟩ := same
  simp only [ScriptHost.contributionOf]
  cases ScriptHost.program? execute attempt with
  | none => rfl
  | some program =>
    have calls : Machine.Memory.initial.calls program parts.natives parts.steps after =
        Machine.Memory.initial.calls program parts.natives parts.steps after' :=
      Machine.Memory.calls_like natives parts.steps .initial alike
    have globals : (Machine.Memory.initial.run program parts.natives parts.steps after').map (·.memory.globals) =
        (Machine.Memory.initial.run program parts.natives parts.steps after).map (·.memory.globals) :=
      sameGlobals (Machine.Memory.run_respects natives _ _ alike)
    simp only [Option.map_some, Option.bind_some, calls, globals]

/-- A group contributes the same on like hosts, whatever was reported before. -/
theorem contribution_like (natives : parts.natives.Respect like)
    (respects : (parts.pipeline preprocessor settings loader).Respects like) {group : ScriptGroup (Host σ)}
    (opens : ∀ unit ∈ group.units, Respects like unit.openStream) (alike : like host host') :
    parts.contribution preprocessor settings loader group execute report' host' =
      parts.contribution preprocessor settings loader group execute report host := by
  have adding : Adding fun _ _ => True := fun _ _ _ _ => trivial
  have begun : (parts.outset preprocessor settings loader group.name report host).Like (fun _ _ => True) like
      (parts.outset preprocessor settings loader group.name report' host') := ⟨rfl, rfl, rfl, trivial, alike⟩
  have units := Pipeline.units_like respects.building adding opens begun
  have ends := Pipeline.unitEnds_like respects.building adding opens begun
  have result := SameAnswer.map_fst (Pipeline.compileAndExecute_like respects group.name execute units)
  refine contributionOf_like natives group ends.symm result ?_
  rw [← units.parsed, ← units.env, ← units.debug]
  exact ScriptHost.compile_respects respects.reporting _ _ _ _ _ units.host

end

section
variable {σ : Type} {parts : ScriptHost σ} {preprocessor : Preprocessor (Host σ)} {settings : Settings} {loader : String}
  {execute : Bool} {seen : List String} {report report' : Report} {host host' : Host σ}

private theorem contribution_end? (group : ScriptGroup (Host σ)) :
    (parts.contribution preprocessor settings loader group execute report host).end? =
      (parts.pipeline preprocessor settings loader).groupEnd? group execute report host := by
  rw [Contribution.end?, Pipeline.groupEnd?, ScriptHost.pipeline_newEnvironment]
  exact Option.map_map _ _ _

private theorem contribution_unfinished {group : ScriptGroup (Host σ)}
    (stuck : (parts.pipeline preprocessor settings loader).buildGroup group execute report host = .unfinished) :
    (parts.contribution preprocessor settings loader group execute report host).result = none := by
  rw [Pipeline.buildGroup_eq, ScriptHost.pipeline_newEnvironment] at stuck
  simp only [Pipeline.finishGroup] at stuck
  split at stuck
  next late => exact congrArg (Option.map Prod.fst) late
  next => cases stuck
  next => cases stuck

theorem contributions_cons_seen {group : ScriptGroup (Host σ)} (before : group.name ∈ seen)
    (groups : List (ScriptGroup (Host σ))) :
    parts.contributions preprocessor settings loader execute seen report host (group :: groups) =
      parts.contributions preprocessor settings loader execute seen report.countDuplicate
        (host.report .debug .pipeline s!"Skipping duplicate group {group.name}") groups := by
  rw [ScriptHost.contributions, if_pos before]

theorem contributions_cons_fresh {group : ScriptGroup (Host σ)} (fresh : group.name ∉ seen)
    (groups : List (ScriptGroup (Host σ))) :
    parts.contributions preprocessor settings loader execute seen report host (group :: groups) =
      parts.contribution preprocessor settings loader group execute report
          (host.report .info .pipeline (Pipeline.loadingMessage group.name)) ::
        match (parts.pipeline preprocessor settings loader).buildGroup group execute report
            (host.report .info .pipeline (Pipeline.loadingMessage group.name)) with
        | .going report host => parts.contributions preprocessor settings loader execute (group.name :: seen) report host groups
        | _ => [] := by
  rw [ScriptHost.contributions, if_neg fresh]

/-- Groups are taken in their order, but for those that are not the first of their name. -/
theorem contributions_firsts (groups : List (ScriptGroup (Host σ))) :
    (parts.contributions preprocessor settings loader execute seen report host groups).map Contribution.group <+:
      firsts seen groups := by
  induction groups generalizing seen report host with
  | nil => exact List.prefix_refl _
  | cons group groups ih =>
    by_cases before : group.name ∈ seen
    · rw [contributions_cons_seen before, firsts_cons_seen before]
      exact ih
    · rw [contributions_cons_fresh before, firsts_cons_fresh before, List.map_cons]
      refine List.prefix_cons_inj _ |>.mpr ?_
      split
      next => exact ih
      next => exact List.nil_prefix

/-- The contributions to a run that goes on to its end have the ends of its history. -/
theorem contributions_history {groups : List (ScriptGroup (Host σ))}
    (built : (parts.pipeline preprocessor settings loader).buildGroups execute seen report host groups = .going report' host') :
    (parts.contributions preprocessor settings loader execute seen report host groups).map Contribution.end? =
      ((parts.pipeline preprocessor settings loader).history execute seen report host groups).map some := by
  induction groups generalizing seen report host with
  | nil => rfl
  | cons group groups ih =>
    by_cases before : group.name ∈ seen
    · rw [Pipeline.buildGroups_cons_seen before] at built
      rw [contributions_cons_seen before, Pipeline.history, if_pos before]
      exact ih built
    · rw [Pipeline.buildGroups_cons_fresh before] at built
      rw [contributions_cons_fresh before, Pipeline.history, if_neg before, List.map_cons, contribution_end?]
      cases first : (parts.pipeline preprocessor settings loader).buildGroup group execute report
          (host.report .info .pipeline (Pipeline.loadingMessage group.name)) with
      | going next after =>
        rw [first] at built
        obtain ⟨ended, finished, -⟩ := Pipeline.buildGroup_account _ first
        simp only [finished, first]
        exact congrArg (some ended :: ·) (ih built)
      | escaped panic after | unfinished =>
        rw [first] at built
        cases built

/-- The last contribution to a run that does not come to its end has no result. -/
theorem contributions_unfinished {groups : List (ScriptGroup (Host σ))}
    (stuck : (parts.pipeline preprocessor settings loader).buildGroups execute seen report host groups = .unfinished) :
    ∃ earlier last, parts.contributions preprocessor settings loader execute seen report host groups = earlier ++ [last] ∧
      last.result = none := by
  induction groups generalizing seen report host with
  | nil => cases stuck
  | cons group groups ih =>
    by_cases before : group.name ∈ seen
    · rw [Pipeline.buildGroups_cons_seen before] at stuck
      rw [contributions_cons_seen before]
      exact ih stuck
    · rw [Pipeline.buildGroups_cons_fresh before] at stuck
      rw [contributions_cons_fresh before]
      cases first : (parts.pipeline preprocessor settings loader).buildGroup group execute report
          (host.report .info .pipeline (Pipeline.loadingMessage group.name)) with
      | going next after =>
        rw [first] at stuck
        obtain ⟨earlier, last, same, late⟩ := ih stuck
        exact ⟨_ :: earlier, last, congrArg (_ :: ·) same, late⟩
      | escaped panic after =>
        rw [first] at stuck
        cases stuck
      | unfinished => exact ⟨[], _, rfl, contribution_unfinished first⟩

/-- What contributions are to the outcome of a run. They are those of the groups that are no duplicates, in their order, and the
report accounts for them; where executing a group takes too long for an answer, that group is the last one. -/
def Contributed (outcome : Pipeline.RunOutcome σ) (groups : List (ScriptGroup (Host σ))) (contributions : List (Contribution σ)) :
    Prop :=
  match outcome with
  | .reported report _ => ∃ ends, contributions.map Contribution.end? = ends.map some ∧ Accounts groups ends report
  | .unfinished =>
    contributions.map Contribution.group <+: (groups.eraseDupsBy fun a b => a.name == b.name) ∧
      ∃ earlier last, contributions = earlier ++ [last] ∧ last.result = none
  | _ => False

/-- What the groups of a source contribute to a run over them. -/
def ScriptHost.contributionsTo (parts : ScriptHost σ) (preprocessor : Preprocessor (Host σ)) (settings : Settings)
    (loader : String) (execute : Bool) (source : Source (Host σ)) (groups : List (ScriptGroup (Host σ))) (host : Host σ) :
    List (Contribution σ) :=
  parts.contributions preprocessor settings loader execute [] .empty (host.reportAll source.groups.events) groups

/-- The report of a run accounts for what the groups contribute to it. -/
theorem run_contributed {source : Source (Host σ)} {groups : List (ScriptGroup (Host σ))}
    (listed : source.groups.result = .ok groups) :
    Contributed ((parts.pipeline preprocessor settings loader).run source execute host) groups
      (parts.contributionsTo preprocessor settings loader execute source groups host) := by
  obtain ⟨⟨_, events⟩⟩ := source
  obtain rfl := listed
  let pipeline := parts.pipeline preprocessor settings loader
  simp only [Contributed, ScriptHost.contributionsTo, Pipeline.run_listed]
  cases built : pipeline.buildGroups execute [] .empty (host.reportAll events) groups with
  | escaped panic after => exact absurd built (buildGroups_ne_escaped _ _ _ _ _ _ _ _ _)
  | unfinished => exact ⟨firsts_nil groups ▸ contributions_firsts groups, contributions_unfinished built⟩
  | going report after =>
    obtain ⟨taken, leftOut, count, same⟩ := pipeline.buildGroups_account built
    rw [Report.empty_add] at same
    subst same
    exact ⟨_, contributions_history built, accounts_of_ends (taken.trans (firsts_nil groups)) (fun _ => history_proper) count⟩

end

end Scriptorium.Build
