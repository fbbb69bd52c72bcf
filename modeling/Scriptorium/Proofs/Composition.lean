import Scriptorium.Proofs.Contributions

/-!
# Composition of runs

A run over two lists of groups without a common name is the run over the first and then the run over the second, and every group
contributes to it what it contributes to its part (`run_append`). A run over groups with repeated names is the run over the first
group of each name, with the same contributions (`run_eraseDups`). So a group changes what later groups come to in no other way than
through the host.
-/
namespace Scriptorium.Build

section
variable {σ : Type} {parts : ScriptHost σ} {preprocessor : Preprocessor (Host σ)} {settings : Settings} {loader : String}
  {execute : Bool} {seen : List String} {report report' : Report} {host host' : Host σ}

/-- The names seen matter to the groups that have them. -/
theorem contributions_seen {seen' : List String} {groups : List (ScriptGroup (Host σ))}
    (agree : ∀ group ∈ groups, group.name ∈ seen ↔ group.name ∈ seen') :
    parts.contributions preprocessor settings loader execute seen report host groups =
      parts.contributions preprocessor settings loader execute seen' report host groups := by
  induction groups generalizing seen seen' report host with
  | nil => rfl
  | cons group groups ih =>
    obtain ⟨first, rest⟩ := List.forall_mem_cons.mp agree
    by_cases before : group.name ∈ seen
    · rw [contributions_cons_seen before, contributions_cons_seen (first.mp before)]
      exact ih rest
    · rw [contributions_cons_fresh before, contributions_cons_fresh (mt first.mpr before)]
      have later : ∀ other ∈ groups, other.name ∈ group.name :: seen ↔ other.name ∈ group.name :: seen' := by
        intro other inside
        rw [List.mem_cons, List.mem_cons, rest other inside]
      split
      next => exact congrArg (_ :: ·) (ih later)
      next => rfl

/-- Groups with names of their own contribute as if nothing had been built before, but for the host. -/
theorem contributions_append {first second : List (ScriptGroup (Host σ))} (fresh : ∀ group ∈ second, group.name ∉ seen)
    (apart : ∀ group ∈ first, ∀ other ∈ second, group.name ≠ other.name) :
    parts.contributions preprocessor settings loader execute seen report host (first ++ second) =
      parts.contributions preprocessor settings loader execute seen report host first ++
        match (parts.pipeline preprocessor settings loader).buildGroups execute seen report host first with
        | .going report host => parts.contributions preprocessor settings loader execute [] report host second
        | _ => [] := by
  induction first generalizing seen report host with
  | nil =>
    refine contributions_seen fun group inside => ?_
    simp only [fresh group inside, List.not_mem_nil]
  | cons group first ih =>
    obtain ⟨here, rest⟩ := List.forall_mem_cons.mp apart
    rw [List.cons_append]
    by_cases before : group.name ∈ seen
    · rw [contributions_cons_seen before, contributions_cons_seen before, Pipeline.buildGroups_cons_seen before]
      exact ih fresh rest
    · rw [contributions_cons_fresh before, contributions_cons_fresh before, Pipeline.buildGroups_cons_fresh before]
      have later : ∀ other ∈ second, other.name ∉ group.name :: seen := by
        intro other inside
        exact List.not_mem_cons_of_ne_of_not_mem (here other inside).symm (fresh other inside)
      cases (parts.pipeline preprocessor settings loader).buildGroup group execute report
          (host.report .info .pipeline (Pipeline.loadingMessage group.name)) with
      | going next after => exact congrArg (_ :: ·) (ih later rest)
      | escaped panic after | unfinished => rfl

/-- A group and those after it contribute the same on like hosts, if those after it do. -/
theorem contributions_cons_like {like : Host σ → Host σ → Prop} (natives : parts.natives.Respect like)
    (respects : (parts.pipeline preprocessor settings loader).Respects like) {group : ScriptGroup (Host σ)} (fresh : group.name ∉ seen)
    (opens : ∀ unit ∈ group.units, Respects like unit.openStream) {groups groups' : List (ScriptGroup (Host σ))}
    (rest : ∀ report report' host host', like host host' →
      parts.contributions preprocessor settings loader execute (group.name :: seen) report' host' groups' =
        parts.contributions preprocessor settings loader execute (group.name :: seen) report host groups)
    (alike : like host host') :
    parts.contributions preprocessor settings loader execute seen report' host' (group :: groups') =
      parts.contributions preprocessor settings loader execute seen report host (group :: groups) := by
  have adding : Adding fun _ _ => True := fun _ _ _ _ => trivial
  have begun := respects.reporting.report alike .info .pipeline (Pipeline.loadingMessage group.name)
  have built : Pipeline.Continuation.Like (fun _ _ => True) like
      ((parts.pipeline preprocessor settings loader).buildGroup group execute report
        (host.report .info .pipeline (Pipeline.loadingMessage group.name)))
      ((parts.pipeline preprocessor settings loader).buildGroup group execute report'
        (host'.report .info .pipeline (Pipeline.loadingMessage group.name))) :=
    Pipeline.buildGroup_like respects adding opens execute trivial begun
  have same : parts.contribution preprocessor settings loader group execute report'
        (host'.report .info .pipeline (Pipeline.loadingMessage group.name)) =
      parts.contribution preprocessor settings loader group execute report
        (host.report .info .pipeline (Pipeline.loadingMessage group.name)) :=
    contribution_like natives respects opens begun
  rw [contributions_cons_fresh fresh, contributions_cons_fresh fresh, same]
  revert built
  generalize (parts.pipeline preprocessor settings loader).buildGroup group execute report _ = built
  generalize (parts.pipeline preprocessor settings loader).buildGroup group execute report' _ = built'
  intro built
  cases built with
  | going related alike => exact congrArg (_ :: ·) (rest _ _ _ _ alike)
  | escaped panic alike | unfinished => rfl

/-- Groups contribute the same on like hosts. -/
theorem contributions_like {like : Host σ → Host σ → Prop} (natives : parts.natives.Respect like)
    (respects : (parts.pipeline preprocessor settings loader).Respects like) {groups : List (ScriptGroup (Host σ))}
    (opens : ∀ group ∈ groups, ∀ unit ∈ group.units, Respects like unit.openStream) (alike : like host host') :
    parts.contributions preprocessor settings loader execute seen report' host' groups =
      parts.contributions preprocessor settings loader execute seen report host groups := by
  induction groups generalizing seen report report' host host' with
  | nil => rfl
  | cons group groups ih =>
    obtain ⟨here, rest⟩ := List.forall_mem_cons.mp opens
    by_cases before : group.name ∈ seen
    · rw [contributions_cons_seen before, contributions_cons_seen before]
      exact ih rest (respects.reporting.report alike _ _ _)
    · exact contributions_cons_like natives respects before here (fun _ _ _ _ alike => ih rest alike) alike

/-- Groups that are not the first of their name contribute nothing. -/
theorem contributions_of_firsts (natives : parts.natives.See (id : σ → σ))
    (scans : ∀ unit stream, Sees (id : σ → σ) (preprocessor.scan unit stream)) {groups : List (ScriptGroup (Host σ))}
    (opens : ∀ group ∈ firsts seen groups, ∀ unit ∈ group.units, Sees (id : σ → σ) unit.openStream) {k : Nat}
    (alike : Host.Like (id : σ → σ) (Thinned k) host host') :
    parts.contributions preprocessor settings loader execute seen report' host' (firsts seen groups) =
      parts.contributions preprocessor settings loader execute seen report host groups := by
  induction groups generalizing seen k report report' host host' with
  | nil => rfl
  | cons group groups ih =>
    by_cases before : group.name ∈ seen
    · rw [firsts_cons_seen before] at opens ⊢
      rw [contributions_cons_seen before]
      have thinner : Host.Like (id : σ → σ) (Thinned (k + 1))
          (host.report .debug .pipeline s!"Skipping duplicate group {group.name}") host' := by
        refine ⟨alike.actions, alike.state, ?_⟩
        simp only [Host.report, Array.toList_push]
        exact alike.log.more _
      exact ih opens thinner
    · rw [firsts_cons_fresh before] at opens ⊢
      obtain ⟨here, rest⟩ := List.forall_mem_cons.mp opens
      have appending := Thinned.appending k
      exact contributions_cons_like (natives.respect appending) (ScriptHost.pipeline_respects appending settings loader natives scans)
        before (fun unit inside => (here unit inside).respects appending) (fun _ _ _ _ alike => ih rest alike) alike

end

section
variable {σ : Type} {parts : ScriptHost σ} {preprocessor : Preprocessor (Host σ)}

/-- What a run over two lists of groups is by the run over the first and then, from the host that it leaves, the run over the
second: the reports are added, the actions and the state are those that the second run leaves, and the log is the two logs in
one, with one summary at its end. Where one of the two takes too long for an answer, so does the whole. -/
def InTurn (pipeline : Pipeline σ) (first second : List (ScriptGroup (Host σ))) (execute : Bool) (host : Host σ) : Prop :=
  match pipeline.run (.ofGroups first) execute host with
  | .reported report between =>
    match pipeline.run (.ofGroups second) execute between with
    | .reported next after =>
      ∃ host', pipeline.run (.ofGroups (first ++ second)) execute host = .reported (report.add next) host' ∧
        host'.actions = after.actions ∧ host'.state = after.state ∧
        ∃ events events', between.log.toList = host.log.toList ++ events ++ [report.summaryEvent] ∧
          after.log.toList = between.log.toList ++ events' ++ [next.summaryEvent] ∧
          host'.log.toList = host.log.toList ++ events ++ events' ++ [(report.add next).summaryEvent]
    | .unfinished => pipeline.run (.ofGroups (first ++ second)) execute host = .unfinished
    | _ => False
  | .unfinished => pipeline.run (.ofGroups (first ++ second)) execute host = .unfinished
  | _ => False

/-- Groups contribute to a run over two lists of them what they contribute to the run over the first and then, from the host that
it leaves, to the run over the second: the same ends, artifacts, calls of natives and globals. -/
def ContributedInTurn (parts : ScriptHost σ) (preprocessor : Preprocessor (Host σ)) (settings : Settings) (loader : String)
    (first second : List (ScriptGroup (Host σ))) (execute : Bool) (host : Host σ) : Prop :=
  let contributed := parts.contributionsTo preprocessor settings loader execute
  contributed (.ofGroups (first ++ second)) (first ++ second) host = contributed (.ofGroups first) first host ++
    match (parts.pipeline preprocessor settings loader).run (.ofGroups first) execute host with
    | .reported _ between => contributed (.ofGroups second) second between
    | _ => []

section
variable (natives : parts.natives.See (id : σ → σ)) (scans : ∀ unit stream, Sees (id : σ → σ) (preprocessor.scan unit stream))
  {first second : List (ScriptGroup (Host σ))}
  (opens : ∀ group ∈ first ++ second, ∀ unit ∈ group.units, Sees (id : σ → σ) unit.openStream)
  (apart : ∀ group ∈ first, ∀ other ∈ second, group.name ≠ other.name) (settings : Settings) (loader : String) (execute : Bool)
  (host : Host σ)
include natives scans opens apart

private theorem run_inTurn : InTurn (parts.pipeline preprocessor settings loader) first second execute host := by
  let pipeline := parts.pipeline preprocessor settings loader
  have whole : pipeline.buildGroups execute [] .empty host (first ++ second) =
      match pipeline.buildGroups execute [] .empty host first with
      | .going report host => pipeline.buildGroups execute [] report host second
      | stopped => stopped :=
    Pipeline.buildGroups_append pipeline execute (fun _ _ => List.not_mem_nil) apart .empty host
  simp only [InTurn, Pipeline.run_ofGroups]
  rw [whole]
  cases built : pipeline.buildGroups execute [] .empty host first with
  | escaped panic after => exact absurd built (buildGroups_ne_escaped _ _ _ _ _ _ _ _ _)
  | unfinished => rfl
  | going report middle =>
    obtain ⟨events, log⟩ := buildGroups_log natives scans
      (fun group inside => opens group (List.mem_append_left second inside)) built
    have appending := GoneOn.appending middle.log (middle.reportAll [report.summaryEvent]).log
    have alike : Pipeline.Continuation.Like (Preceded report)
        (Host.Like (id : σ → σ) (GoneOn middle.log (middle.reportAll [report.summaryEvent]).log))
        (pipeline.buildGroups execute [] report middle second)
        (pipeline.buildGroups execute [] .empty (middle.reportAll [report.summaryEvent]) second) :=
      Pipeline.buildGroups_like (ScriptHost.pipeline_respects appending settings loader natives scans) (Preceded.adding report)
        (fun group inside unit here => (opens group (List.mem_append_right first inside) unit here).respects appending) execute []
        (Report.add_empty report).symm ⟨rfl, rfl, GoneOn.start _ _⟩
    simp only
    cases next : pipeline.buildGroups execute [] .empty (middle.reportAll [report.summaryEvent]) second with
    | escaped panic after => exact absurd next (buildGroups_ne_escaped _ _ _ _ _ _ _ _ _)
    | unfinished =>
      rw [next] at alike
      simp only [alike.of_unfinished]
    | going next after =>
      rw [next] at alike
      obtain ⟨both, last, built, rfl, alike⟩ := alike.of_going
      obtain ⟨events', log', log''⟩ := alike.log
      simp only [built]
      refine ⟨_, rfl, alike.actions, alike.state, events, events', ?_⟩
      simp only [Host.reportAll, Array.toList_appendList] at log'' ⊢
      rw [log', log'', log]
      simp only [List.append_assoc, and_self]

private theorem run_contributedInTurn : ContributedInTurn parts preprocessor settings loader first second execute host := by
  have plain : ∀ (groups : List (ScriptGroup (Host σ))) (host : Host σ),
      parts.contributionsTo preprocessor settings loader execute (.ofGroups groups) groups host =
        parts.contributions preprocessor settings loader execute [] .empty host groups := by
    intro groups host
    rw [ScriptHost.contributionsTo, Source.ofGroups, Host.reportAll, Array.appendList_nil]
  simp only [ContributedInTurn, plain, Pipeline.run_ofGroups]
  rw [contributions_append (fun _ _ => List.not_mem_nil) apart]
  congr 1
  cases (parts.pipeline preprocessor settings loader).buildGroups execute [] .empty host first with
  | escaped panic after | unfinished => rfl
  | going report middle =>
    have appending := GoneOn.appending middle.log (middle.reportAll [report.summaryEvent]).log
    have alike : Host.Like (id : σ → σ) (GoneOn middle.log (middle.reportAll [report.summaryEvent]).log) middle
        (middle.reportAll [report.summaryEvent]) := ⟨rfl, rfl, GoneOn.start _ _⟩
    have respects := ScriptHost.pipeline_respects appending settings loader natives scans
    exact (contributions_like (natives.respect appending) respects
      (fun group inside unit here => (opens group (List.mem_append_right first inside) unit here).respects appending) alike).symm

end

/-- A run over two lists of groups that have no name in common is the two runs in turn, and the groups contribute the same. -/
theorem run_append (natives : parts.natives.See (id : σ → σ))
    (scans : ∀ unit stream, Sees (id : σ → σ) (preprocessor.scan unit stream)) {first second : List (ScriptGroup (Host σ))}
    (opens : ∀ group ∈ first ++ second, ∀ unit ∈ group.units, Sees (id : σ → σ) unit.openStream)
    (apart : ∀ group ∈ first, ∀ other ∈ second, group.name ≠ other.name)
    (settings : Settings) (loader : String) (execute : Bool) (host : Host σ) :
    InTurn (parts.pipeline preprocessor settings loader) first second execute host ∧
      ContributedInTurn parts preprocessor settings loader first second execute host :=
  ⟨run_inTurn natives scans opens apart settings loader execute host,
    run_contributedInTurn natives scans opens apart settings loader execute host⟩

end

theorem contentScripts_run_append :
    InTurn (contentParts.pipeline .directives .initial "tweaker") (groupsOf (contentScripts.take 2))
        (groupsOf (contentScripts.drop 2)) true (.initial ∅) ∧
      ContributedInTurn contentParts .directives .initial "tweaker" (groupsOf (contentScripts.take 2))
        (groupsOf (contentScripts.drop 2)) true (.initial ∅) :=
  run_append contentParts_see Preprocessor.directives_sees
    (by
      rw [groupsOf, groupsOf, ← List.map_append]
      exact ofScript_sees)
    (by simp [groupsOf, contentScripts, ScriptGroup.ofScript]) .initial "tweaker" true (.initial ∅)

section
variable {σ : Type} {parts : ScriptHost σ} {preprocessor : Preprocessor (Host σ)}

/-- What a run over the groups of a source is by the run over the first group of each name: the same failures, counts of groups
and units, actions and state. The groups left out are counted, and there is a line for each in the log. -/
def ByFirsts (pipeline : Pipeline σ) (source : Source (Host σ)) (groups : List (ScriptGroup (Host σ))) (execute : Bool)
    (host : Host σ) : Prop :=
  let kept := groups.eraseDupsBy fun a b => a.name == b.name
  let dropped := groups.length - kept.length
  match pipeline.run ⟨.ok kept, source.groups.events⟩ execute host with
  | .reported report after =>
    report.groupsSkipped = 0 ∧
    ∃ host', pipeline.run source execute host = .reported { report with groupsSkipped := dropped } host' ∧
      host'.actions = after.actions ∧ host'.state = after.state ∧
      ∃ log log', host'.log.toList = log ++ [Report.summaryEvent { report with groupsSkipped := dropped }] ∧
        after.log.toList = log' ++ [report.summaryEvent] ∧ log'.Sublist log ∧ log.length = log'.length + dropped
  | .unfinished => pipeline.run source execute host = .unfinished
  | _ => False

/-- The first groups of each name contribute to a run over the groups of a source what they contribute to a run over them alone:
the same ends, artifacts, calls of natives and globals. The other groups contribute nothing. -/
def ContributedByFirsts (parts : ScriptHost σ) (preprocessor : Preprocessor (Host σ)) (settings : Settings) (loader : String)
    (source : Source (Host σ)) (groups : List (ScriptGroup (Host σ))) (execute : Bool) (host : Host σ) : Prop :=
  let kept := groups.eraseDupsBy fun a b => a.name == b.name
  let contributed := parts.contributionsTo preprocessor settings loader execute
  contributed source groups host = contributed ⟨.ok kept, source.groups.events⟩ kept host

section
variable (natives : parts.natives.See (id : σ → σ)) (scans : ∀ unit stream, Sees (id : σ → σ) (preprocessor.scan unit stream))
  {source : Source (Host σ)} {groups : List (ScriptGroup (Host σ))}
  (opens : ∀ group ∈ groups.eraseDupsBy (fun a b => a.name == b.name), ∀ unit ∈ group.units, Sees (id : σ → σ) unit.openStream)
  (settings : Settings) (loader : String) (execute : Bool) (host : Host σ)
include natives scans opens

private theorem run_byFirsts (listed : source.groups.result = .ok groups) :
    ByFirsts (parts.pipeline preprocessor settings loader) source groups execute host := by
  obtain ⟨⟨_, events⟩⟩ := source
  obtain rfl := listed
  rw [← firsts_nil] at opens
  have begun : Host.Like (id : σ → σ) (Thinned 0) (host.reportAll events) (host.reportAll events) :=
    ⟨rfl, rfl, List.Sublist.refl _, rfl⟩
  have alike := buildGroups_firsts natives scans settings loader execute opens (Report.empty_add .empty).symm begun
  simp only [ByFirsts, Pipeline.run_listed, ← firsts_nil]
  simp only [Nat.zero_add] at alike
  cases built : (parts.pipeline preprocessor settings loader).buildGroups execute [] .empty (host.reportAll events)
      (firsts [] groups) with
  | escaped panic after => exact absurd built (buildGroups_ne_escaped _ _ _ _ _ _ _ _ _)
  | unfinished =>
    rw [built] at alike
    simp only [alike.of_unfinished]
  | going report after =>
    rw [built] at alike
    obtain ⟨whole, last, going, related, alike⟩ := alike.of_going
    have shorter := firsts_length_le [] groups
    have none_left : report.groupsSkipped = 0 := by
      have count := Pipeline.buildGroups_groupsSkipped _ going
      rw [show whole = _ from related] at count
      simp only [Report.add, Report.empty] at count
      omega
    have skipped : whole = { report with groupsSkipped := groups.length - (firsts [] groups).length } := by
      rw [show whole = _ from related]
      simp only [Report.add, none_left, List.nil_append, Nat.zero_add, Nat.add_zero]
    rw [going, skipped]
    exact ⟨none_left, _, rfl, alike.actions, alike.state, last.log.toList, after.log.toList, Array.toList_appendList,
      Array.toList_appendList, alike.log⟩

private theorem run_contributedByFirsts : ContributedByFirsts parts preprocessor settings loader source groups execute host := by
  rw [← firsts_nil] at opens
  have begun : Host.Like (id : σ → σ) (Thinned 0) (host.reportAll source.groups.events) (host.reportAll source.groups.events) :=
    ⟨rfl, rfl, List.Sublist.refl _, rfl⟩
  simp only [ContributedByFirsts, ScriptHost.contributionsTo, ← firsts_nil]
  exact (contributions_of_firsts natives scans opens begun).symm

end

/-- A run over the groups of a source is the run over the first group of each name, and these contribute the same. -/
theorem run_eraseDups (natives : parts.natives.See (id : σ → σ))
    (scans : ∀ unit stream, Sees (id : σ → σ) (preprocessor.scan unit stream)) {source : Source (Host σ)}
    {groups : List (ScriptGroup (Host σ))} (listed : source.groups.result = .ok groups)
    (opens : ∀ group ∈ groups.eraseDupsBy (fun a b => a.name == b.name), ∀ unit ∈ group.units,
      Sees (id : σ → σ) unit.openStream)
    (settings : Settings) (loader : String) (execute : Bool) (host : Host σ) :
    ByFirsts (parts.pipeline preprocessor settings loader) source groups execute host ∧
      ContributedByFirsts parts preprocessor settings loader source groups execute host :=
  ⟨run_byFirsts natives scans opens settings loader execute host listed,
    run_contributedByFirsts natives scans opens settings loader execute host⟩

end

theorem repeatedSources_run_eraseDups :
    ByFirsts (contentParts.pipeline .directives .initial "tweaker") (.cascade repeatedSources)
        (groupsOf (contentScripts ++ contentScripts.reverse)) true (.initial ∅) ∧
      ContributedByFirsts contentParts .directives .initial "tweaker" (.cascade repeatedSources)
        (groupsOf (contentScripts ++ contentScripts.reverse)) true (.initial ∅) :=
  run_eraseDups contentParts_see Preprocessor.directives_sees rfl
    (by
      have kept : (groupsOf (contentScripts ++ contentScripts.reverse)).eraseDupsBy (fun a b => a.name == b.name) =
          groupsOf contentScripts := rfl
      rw [kept]
      exact ofScript_sees) .initial "tweaker" true (.initial ∅)

end Scriptorium.Build
